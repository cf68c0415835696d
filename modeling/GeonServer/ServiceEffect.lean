import GeonServer.Service
/-!
# ServiceEffect — what a step of the service can do

`serviceStep_effect` takes every step of a service apart once: a thread at its task changes one session (`TaskStep`), or
what the lock protects with it (`LockStep`), it takes a step of a virtual function, or it calls or is inside
`Disconnect` or `Send`.  What each invariant and each measure of the service needs of a step is read off this.
-/
namespace Geon

open Function

variable {Tid Buf : Type} {K : Contents Buf}

namespace ServiceState

/-! ## The steps of a task -/

/-- **Thread at `task`, touching nothing but session `a`**, which is `x` before the step: what it makes of the session,
and where it goes on. -/
inductive TaskStep (type : ServiceType) (junk : Nat → BYTE) (answer : Answer) (a : Nat) (x : Session Tid Buf) :
    Task K.Prog Buf → Session Tid Buf → Task K.Prog Buf → Prop
  | connectRefused : x.send.connected = true ∨ type ≠ .Client ∨ answer.ok = false →
    TaskStep type junk answer a x (.registerConnect a .check) x .idle
  | connectOwn : x.send.connected = false → type = .Client → answer.ok = true →
    TaskStep type junk answer a x (.registerConnect a .check)
      { x with connectEvent := { x.connectEvent with owner := true } } (.registerConnect a .post)
  | connectPost : answer.wsa.failed = none → TaskStep type junk answer a x (.registerConnect a .post)
      { x with connectEvent := { x.connectEvent with ops := () :: x.connectEvent.ops } } .idle
  | connectFail : answer.wsa.failed ≠ none →
    TaskStep type junk answer a x (.registerConnect a .post) x (.registerConnect a .reset)
  | connectDrop : TaskStep type junk answer a x (.registerConnect a .reset)
      { x with connectEvent := { x.connectEvent with owner := false } } .idle
  | acceptPost : answer.wsa.failed = none →
    TaskStep type junk answer a x (.acceptEx a) { x with accepts := () :: x.accepts } .idle
  | acceptFail : answer.wsa.failed ≠ none → TaskStep type junk answer a x (.acceptEx a) x .registerAccept
  | acceptRefused : answer.ok = false → TaskStep type junk answer a x (.processAccept a) x .registerAccept
  | acceptOpen : answer.ok = true → TaskStep type junk answer a x (.processAccept a)
      { x with history :=
        { x.history with connects := x.history.connects + 1, accepted := x.history.accepted + 1 } }
      (.processConnect a true .store)
  | «open» (accepted : Bool) : TaskStep type junk answer a x (.processConnect a accepted .store)
      { x with connectEvent := { x.connectEvent with owner := false }, send := { x.send with connected := true } }
      (.processConnect a accepted .lock)
  | recvSkip (accepted : Bool) : x.send.connected = false →
    TaskStep type junk answer a x (.registerRecv a accepted .check) x (afterRecv accepted)
  | recvOwn (accepted : Bool) : x.send.connected = true → TaskStep type junk answer a x (.registerRecv a accepted .check)
      { x with recvEvent := { x.recvEvent with owner := true } } (.registerRecv a accepted .post)
  | recvPost (accepted : Bool) : answer.wsa.failed = none → TaskStep type junk answer a x (.registerRecv a accepted .post)
      { x with recvEvent :=
        { x.recvEvent with ops := x.recvEvent.ops ++ [⟨x.recvBuffer.writePos, x.recvBuffer.freeSize⟩] } }
      (afterRecv accepted)
  | recvFail (accepted : Bool) (errCode : Nat) : answer.wsa.failed = some errCode →
    TaskStep type junk answer a x (.registerRecv a accepted .post) x (.registerRecv a accepted (.error errCode))
  | recvLog (accepted : Bool) (errCode : Nat) : handleError errCode = none →
    TaskStep type junk answer a x (.registerRecv a accepted (.error errCode)) x (.registerRecv a accepted .reset)
  | recvDrop (accepted : Bool) : TaskStep type junk answer a x (.registerRecv a accepted .reset)
      { x with recvEvent := { x.recvEvent with owner := false } } (afterRecv accepted)
  | recvClear (numOfBytes : Nat) : TaskStep type junk answer a x (.processRecv a (.clear numOfBytes))
      { x with recvEvent := { x.recvEvent with owner := false } } (.processRecv a (.check numOfBytes))
  | recvRead (numOfBytes : Nat) (b : RecvBuffer) : numOfBytes ≠ 0 → x.recvBuffer.onWrite numOfBytes = (true, b) →
    TaskStep type junk answer a x (.processRecv a (.check numOfBytes)) { x with recvBuffer := b }
      (.processRecv a (.loop 0))
  | recvPacket (processLen size : Nat) : packetHead (x.recvBuffer.data.drop processLen) = some size →
    TaskStep type junk answer a x (.processRecv a (.loop processLen)) x
      (.processRecv a (.packet (processLen + size) (K.onRecvPacket (x.recvBuffer.data.drop processLen) size)))
  | recvAgain (processLen : Nat) (b : RecvBuffer) : packetHead (x.recvBuffer.data.drop processLen) = none →
    x.recvBuffer.onRead processLen = (true, b) →
    TaskStep type junk answer a x (.processRecv a (.loop processLen)) { x with recvBuffer := b.clean junk }
      (.registerRecv a false .check)
  | partClear : TaskStep type junk answer a x (.processDisconnect a .clear)
      { x with disconnectEvent := { x.disconnectEvent with owner := false } }
      (.processDisconnect a (.onDisconnected K.onDisconnected))

/-- **Where a thread inside `RegisterDisconnect`** goes on, and what it makes of session `x`. -/
inductive CloseStep (answer : Answer) (x : Session Tid Buf) : ClosePc → Session Tid Buf → Option ClosePc → Prop
  | own : CloseStep answer x .register
      { x with disconnectEvent := { x.disconnectEvent with owner := true } } (some .post)
  | post : answer.wsa.failed = none → CloseStep answer x .post
      { x with disconnectEvent := { x.disconnectEvent with ops := () :: x.disconnectEvent.ops } } none
  | fail : answer.wsa.failed ≠ none → CloseStep answer x .post x (some .reset)
  | drop : CloseStep answer x .reset
      { x with
        disconnectEvent := { x.disconnectEvent with owner := false },
        history := { x.history with lost := x.history.lost + 1 } } none

/-- **What `Dispatch` makes of session `a`**, which is `x`, at a completion that is not of a send: where the thread goes
on, and the owner of the event. -/
inductive Dequeued (error : Option Nat) (a : Nat) (x : Session Tid Buf) :
    Completion → Session Tid Buf → Task K.Prog Buf → Bool → Prop
  | connect (ops : List Unit) : x.connectEvent.ops = () :: ops → Dequeued error a x (.connect a)
      { x with
        connectEvent := { x.connectEvent with ops := ops },
        history := { x.history with
          connects := x.history.connects + 1,
          connectOk := x.history.connectOk + (if error = none then 1 else 0),
          connectFailed := x.history.connectFailed + (if error = none then 0 else 1) } }
      (.processConnect a false .store) x.connectEvent.owner
  | disconnect (ops : List Unit) : x.disconnectEvent.ops = () :: ops → Dequeued error a x (.disconnect a)
      { x with
        disconnectEvent := { x.disconnectEvent with ops := ops },
        history := { x.history with disconnects := x.history.disconnects + 1 } }
      (.processDisconnect a .clear) x.disconnectEvent.owner
  | accept (accepts : List Unit) : x.accepts = () :: accepts →
    Dequeued error a x (.accept a) { x with accepts := accepts } (.processAccept a) true
  | recv (i : Nat) (bytes : List BYTE) (posted : PostedRecv) : x.recvEvent.ops[i]? = some posted →
    bytes.length ≤ posted.len → Dequeued error a x (.recv a i bytes)
      { x with
        recvBuffer := x.recvBuffer.store posted.pos bytes,
        recvEvent := { x.recvEvent with ops := x.recvEvent.ops.eraseIdx i } }
      (.processRecv a (.clear bytes.length)) x.recvEvent.owner

/-- **The virtual functions of session `a`**: where a thread inside is, where it is after it, and what the history notes
of the return. -/
inductive Virtual (a : Nat) : (K.Prog → Task K.Prog Buf) → Task K.Prog Buf → (History → History) → Prop
  | onConnected (accepted : Bool) : Virtual a (fun prog => .processConnect a accepted (.onConnected prog))
      (.registerRecv a accepted .check) (fun history => { history with greeted := history.greeted + 1 })
  | onRecvPacket (processLen : Nat) : Virtual a (fun prog => .processRecv a (.packet processLen prog))
      (.processRecv a (.loop processLen)) id
  | onDisconnected : Virtual a (fun prog => .processDisconnect a (.onDisconnected prog))
      (.processDisconnect a .release) (fun history => { history with parted := history.parted + 1 })

/-- **Who calls `CreateSession`**, and where the thread goes on. -/
inductive Creates (t : Tid) : ServiceAct Tid Buf → Task K.Prog Buf → (Nat → Task K.Prog Buf) → Prop
  | accept (answer : Answer) : Creates t (.next t answer) .registerAccept .acceptEx
  | connect : Creates t (.connect t) .idle (fun a => .registerConnect a .check)

/-- **Where a thread takes or releases the lock of the service**: what it makes of what the lock protects, and of session
`a`. -/
inductive LockStep (s : ServiceState Tid K) (t : Tid) (a : Nat) :
    ServiceAct Tid Buf → Task K.Prog Buf → ServiceState Tid K → Session Tid Buf → Task K.Prog Buf → Prop
  | count (answer : Answer) (accepted : Bool) : s.lock = none →
    LockStep s t a (.next t answer) (.processConnect a accepted .lock)
      { s with lock := some t, sessionCount := s.sessionCount + 1 } (s.session a) (.processConnect a accepted .insert)
  | insert (answer : Answer) (accepted : Bool) :
    LockStep s t a (.next t answer) (.processConnect a accepted .insert)
      { s with lock := none, sessions := Insert.insert a s.sessions }
      { s.session a with history := { (s.session a).history with added := (s.session a).history.added + 1 } }
      (.processConnect a accepted (.onConnected K.onConnected))
  | release (answer : Answer) : s.lock = none → a ∈ s.sessions →
    LockStep s t a (.next t answer) (.processDisconnect a .release)
      { s with lock := some t, sessions := s.sessions.erase a }
      { s.session a with history := { (s.session a).history with released := (s.session a).history.released + 1 } }
      (.processDisconnect a .uncount)
  | uncount (answer : Answer) : LockStep s t a (.next t answer) (.processDisconnect a .uncount)
      { s with lock := none, sessionCount := s.sessionCount - 1 } (s.session a) .idle
  | broadcast (sendBuffer : Buf) (order : List Nat) : s.lock = none → order.Nodup → order.toFinset = s.sessions →
    LockStep s t a (.broadcast t sendBuffer order) .idle { s with lock := some t } (s.session a)
      (.broadcast sendBuffer order)
  | broadcastEnd (answer : Answer) (sendBuffer : Buf) :
    LockStep s t a (.next t answer) (.broadcast sendBuffer []) { s with lock := none } (s.session a) .idle

/-- **Who calls `Disconnect` of session `a`**, and where the thread goes on after it. -/
inductive HangsUp (s : ServiceState Tid K) (t : Tid) (a : Nat) :
    ServiceAct Tid Buf → Task K.Prog Buf → Task K.Prog Buf → Prop
  | recvFailed (answer : Answer) (accepted : Bool) (errCode : Nat) : handleError errCode ≠ none →
    HangsUp s t a (.next t answer) (.registerRecv a accepted (.error errCode)) (.registerRecv a accepted .reset)
  | recvEmpty (answer : Answer) (numOfBytes : Nat) :
    numOfBytes = 0 ∨ ((s.session a).recvBuffer.onWrite numOfBytes).1 = false →
    HangsUp s t a (.next t answer) (.processRecv a (.check numOfBytes)) .idle
  | recvLoop (answer : Answer) (processLen : Nat) :
    packetHead ((s.session a).recvBuffer.data.drop processLen) = none →
    HangsUp s t a (.next t answer) (.processRecv a (.loop processLen)) .idle
  | contents : s.known a → HangsUp s t a (.disconnect t a) .idle .idle

/-- **Who calls `Send` of session `b`**, what the contents keep after it, and where the thread goes on. -/
inductive Sender (s : ServiceState Tid K) (t : Tid) (b : Nat) (sendBuffer : Buf) :
    ServiceAct Tid Buf → Task K.Prog Buf → K.State → Task K.Prog Buf → Prop
  | callback (answer : Answer) {a : Nat} {inside : K.Prog → Task K.Prog Buf} {after : Task K.Prog Buf}
    {note : History → History} {prog prog' : K.Prog} {contents : K.State} : Virtual a inside after note →
    K.step s.contents a prog = some (.send contents b sendBuffer prog') → s.known b →
    Sender s t b sendBuffer (.next t answer) (inside prog) contents (inside prog')
  | broadcast (answer : Answer) (sessions : List Nat) :
    Sender s t b sendBuffer (.next t answer) (.broadcast sendBuffer (b :: sessions)) s.contents
      (.broadcast sendBuffer sessions)
  | contents : s.known b → Sender s t b sendBuffer (.send t b sendBuffer) .idle s.contents .idle

variable {type : ServiceType} {junk : Nat → BYTE} {s s' : ServiceState Tid K} {t : Tid} {answer : Answer} {a : Nat}
  {act : ServiceAct Tid Buf} {x x' : Session Tid Buf} {task task' : Task K.Prog Buf}

/-! ## Whose session it is, and its send path -/

theorem TaskStep.session (h : TaskStep type junk answer a x task x' task') : task.session? = some a := by
  cases h <;> rfl

theorem Virtual.session {inside : K.Prog → Task K.Prog Buf} {after : Task K.Prog Buf} {note : History → History}
    (h : Virtual a inside after note) (prog : K.Prog) : (inside prog).session? = some a := by
  cases h <;> rfl

theorem TaskStep.send (h : TaskStep type junk answer a x task x' task') :
    x'.send = x.send ∨ x'.send = { x.send with connected := true } := by
  cases h with
  | «open» => exact .inr rfl
  | _ => exact .inl rfl

theorem CloseStep.send {pc : ClosePc} {pc' : Option ClosePc} (h : CloseStep answer x pc x' pc') : x'.send = x.send := by
  cases h <;> rfl

theorem Dequeued.send {error : Option Nat} {completion : Completion} {owner : Bool}
    (h : Dequeued error a x completion x' task' owner) : x'.send = x.send := by
  cases h <;> rfl

theorem LockStep.send {s₁ : ServiceState Tid K} (h : LockStep s t a act task s₁ x' task') :
    x'.send = (s.session a).send := by
  cases h <;> rfl

/-! ## Every step -/

theorem worker_eq {Prog : Type} {w : ServiceWorker Prog Buf} (hc : w.closing = none) (hs : w.sending = none) :
    w = ⟨w.task, none, none⟩ := by
  cases w
  cases hc
  cases hs
  rfl

theorem eq_of_isIdle (h : s.isIdle t = true) : s.workers t = ⟨.idle, none, none⟩ := by
  unfold isIdle at h
  split at h
  · assumption
  · cases h

@[simp] theorem setSession_self (s : ServiceState Tid K) (a : Nat) : s.setSession a (s.session a) = s := by
  unfold setSession
  rw [update_eq_self]

variable [DecidableEq Tid]

/-- Besides what the lock protects, the step changes its thread and session `a`. -/
theorem LockStep.same {s₁ : ServiceState Tid K} (h : LockStep s t a act task s₁ x task') :
    ((s₁.setSession a x).goto t task').session = update s.session a x ∧
    ((s₁.setSession a x).goto t task').workers = update s.workers t ⟨task', none, none⟩ ∧
    ((s₁.setSession a x).goto t task').numSessions = s.numSessions ∧
    ((s₁.setSession a x).goto t task').contents = s.contents := by
  cases h <;> exact ⟨rfl, rfl, rfl, rfl⟩

/-- **What a step can do.** -/
inductive Effect (type : ServiceType) (junk : Nat → BYTE) (s : ServiceState Tid K) :
    ServiceAct Tid Buf → ServiceState Tid K → Prop
  | task {t : Tid} {answer : Answer} {a : Nat} {x : Session Tid Buf} {task task' : Task K.Prog Buf} :
    s.workers t = ⟨task, none, none⟩ → TaskStep type junk answer a (s.session a) task x task' →
    Effect type junk s (.next t answer) ((s.setSession a x).goto t task')
  | lock {t : Tid} {act : ServiceAct Tid Buf} {a : Nat} {s₁ : ServiceState Tid K} {x : Session Tid Buf}
    {task task' : Task K.Prog Buf} : s.workers t = ⟨task, none, none⟩ → LockStep s t a act task s₁ x task' →
    Effect type junk s act ((s₁.setSession a x).goto t task')
  | goOn {t : Tid} {answer : Answer} {a : Nat} {inside : K.Prog → Task K.Prog Buf} {after : Task K.Prog Buf}
    {note : History → History} {prog prog' : K.Prog} {contents : K.State} :
    s.workers t = ⟨inside prog, none, none⟩ → Virtual a inside after note →
    K.step s.contents a prog = some (.goOn contents prog') →
    Effect type junk s (.next t answer) ({ s with contents := contents }.goto t (inside prog'))
  | ret {t : Tid} {answer : Answer} {a : Nat} {inside : K.Prog → Task K.Prog Buf} {after : Task K.Prog Buf}
    {note : History → History} {prog : K.Prog} {contents : K.State} :
    s.workers t = ⟨inside prog, none, none⟩ → Virtual a inside after note →
    K.step s.contents a prog = some (.ret contents) →
    Effect type junk s (.next t answer) (({ s with contents := contents }.setSession a
      { s.session a with history := note (s.session a).history }).goto t after)
  | callSend {t : Tid} {act : ServiceAct Tid Buf} {b : Nat} {sendBuffer : Buf} {contents : K.State}
    {task task' : Task K.Prog Buf} {send : SendState Tid Buf} : s.workers t = ⟨task, none, none⟩ →
    Sender s t b sendBuffer act task contents task' → sendStep (s.session b).send (.send t sendBuffer) = some send →
    Effect type junk s act ({ s with contents := contents }.setSend t b task' send)
  | sending {t : Tid} {answer : Answer} {a : Nat} {send : SendState Tid Buf} : (s.workers t).closing = none →
    (s.workers t).sending = some a → sendStep (s.session a).send (.next t answer.wsa) = some send →
    Effect type junk s (.next t answer) (s.setSend t a (s.workers t).task send)
  | hangUp {t : Tid} {act : ServiceAct Tid Buf} {a : Nat} {task task' : Task K.Prog Buf} :
    s.workers t = ⟨task, none, none⟩ → HangsUp s t a act task task' → (s.session a).send.connected = true →
    Effect type junk s act ((s.setSession a
      { s.session a with send := { (s.session a).send with connected := false } }).setWorker t
      ⟨task', none, some (a, .register)⟩)
  | hungUp {t : Tid} {act : ServiceAct Tid Buf} {a : Nat} {task task' : Task K.Prog Buf} :
    s.workers t = ⟨task, none, none⟩ → HangsUp s t a act task task' → (s.session a).send.connected = false →
    Effect type junk s act (s.goto t task')
  | close {t : Tid} {answer : Answer} {a : Nat} {pc : ClosePc} {x : Session Tid Buf} {pc' : Option ClosePc} :
    (s.workers t).closing = some (a, pc) → CloseStep answer (s.session a) pc x pc' →
    Effect type junk s (.next t answer) ((s.setSession a x).setWorker t
      { s.workers t with closing := pc'.map (fun pc => (a, pc)) })
  | create {t : Tid} {act : ServiceAct Tid Buf} {task : Task K.Prog Buf} {f : Nat → Task K.Prog Buf} :
    s.workers t = ⟨task, none, none⟩ → Creates t act task f → Effect type junk s act (s.createSession t f)
  | startAccept {t : Tid} : s.workers t = ⟨.idle, none, none⟩ → type = .Server →
    Effect type junk s (.startAccept t) (s.goto t .registerAccept)
  | take {t : Tid} {completion : Completion} {error : Option Nat} {a : Nat} {x : Session Tid Buf}
    {task' : Task K.Prog Buf} {owner : Bool} : s.workers t = ⟨.idle, none, none⟩ → error ≠ some WAIT_TIMEOUT →
    Dequeued error a (s.session a) completion x task' owner →
    Effect type junk s (.dequeue t completion error) (((s.setSession a x).goto t task').dispatch owner)
  | takeSend {t : Tid} {error : Option Nat} {a i numOfBytes : Nat} {send : SendState Tid Buf} :
    s.workers t = ⟨.idle, none, none⟩ → error ≠ some WAIT_TIMEOUT →
    sendStep (s.session a).send (.complete t i numOfBytes) = some send →
    Effect type junk s (.dequeue t (.send a i numOfBytes) error)
      ((s.setSend t a .idle send).dispatch (s.session a).send.sendEvent.owner)
  | releaseFails {t : Tid} {answer : Answer} {a : Nat} :
    s.workers t = ⟨.processDisconnect a .release, none, none⟩ → s.lock = none → a ∉ s.sessions →
    Effect type junk s (.next t answer) { s with crashed := some .releaseSession }
  | destroy {a : Nat} : a < s.numSessions → (s.session a).destroyed = false → ¬ s.referenced a →
    Effect type junk s (.destroy a) (s.setSession a { s.session a with destroyed := true })

/-- A thread goes on, and its session stays as it is. -/
theorem Effect.goto (hw : s.workers t = ⟨task, none, none⟩)
    (h : TaskStep type junk answer a (s.session a) task (s.session a) task') :
    Effect type junk s (.next t answer) (s.goto t task') := by
  have he := Effect.task hw h
  rwa [setSession_self] at he

theorem Effect.disconnect (hw : s.workers t = ⟨task, none, none⟩) (h : HangsUp s t a act task task') :
    Effect type junk s act (s.disconnect t a ⟨task', none, none⟩) := by
  unfold ServiceState.disconnect
  dsimp only
  split
  · rename_i hc
    exact .hungUp hw h hc
  · rename_i hc
    exact .hangUp hw h (Bool.of_not_eq_false hc)

theorem closeNext_effect {pc : ClosePc} (hc : (s.workers t).closing = some (a, pc)) :
    Effect type junk s (.next t answer) (s.closeNext t a answer pc) := by
  cases pc with
  | register => exact .close hc .own
  | post =>
    unfold closeNext
    dsimp only
    split
    · rename_i hpost
      exact .close hc (.post hpost)
    · rename_i hfail
      have he : Effect type junk s (.next t answer) _ := .close hc (.fail (by rw [hfail]; nofun))
      rwa [setSession_self] at he
  | reset => exact .close hc .drop

theorem callback_effect {prog : K.Prog} {inside : K.Prog → Task K.Prog Buf} {after : Task K.Prog Buf}
    {note : History → History} (hw : s.workers t = ⟨inside prog, none, none⟩) (hv : Virtual a inside after note)
    (he : s.callback t a prog inside after note = some s') : Effect type junk s (.next t answer) s' := by
  unfold callback at he
  split at he
  · cases he
  · rename_i hstep
    cases he
    exact .goOn hw hv hstep
  · rename_i hstep
    split at he
    · rename_i hknown
      obtain ⟨send, hsend, rfl⟩ := Option.map_eq_some_iff.1 he
      exact .callSend hw (.callback answer hv hstep hknown) hsend
    · cases he
  · rename_i hstep
    cases he
    exact .ret hw hv hstep

theorem connectNext_effect {pc : ConnectPc} (hw : s.workers t = ⟨.registerConnect a pc, none, none⟩) :
    Effect type junk s (.next t answer) (s.connectNext type t a answer pc) := by
  cases pc with
  | check =>
    unfold connectNext
    split_ifs with hc htype hok
    · exact .goto hw (.connectRefused (.inl hc))
    · exact .goto hw (.connectRefused (.inr (.inl htype)))
    · exact .goto hw (.connectRefused (.inr (.inr hok)))
    · exact .task hw (.connectOwn (Bool.of_not_eq_true hc) (not_not.1 htype) (Bool.of_not_eq_false hok))
  | post =>
    unfold connectNext
    dsimp only
    split
    · rename_i hpost
      exact .task hw (.connectPost hpost)
    · rename_i hfail
      exact .goto hw (.connectFail (by rw [hfail]; nofun))
  | reset => exact .task hw .connectDrop

theorem openNext_effect {accepted : Bool} {pc : OpenPc K.Prog}
    (hw : s.workers t = ⟨.processConnect a accepted pc, none, none⟩) (he : s.openNext t a accepted pc = some s') :
    Effect type junk s (.next t answer) s' := by
  cases pc with
  | store =>
    cases he
    exact .task hw (.open accepted)
  | lock =>
    simp only [openNext] at he
    split at he
    · rename_i hlock
      cases he
      have heff : Effect type junk s (.next t answer) _ := .lock hw (.count (a := a) answer accepted hlock)
      rwa [setSession_self { s with lock := some t, sessionCount := s.sessionCount + 1 } a] at heff
    · cases he
  | insert =>
    cases he
    exact .lock hw (.insert answer accepted)
  | onConnected prog =>
    unfold openNext at he
    exact callback_effect hw (Virtual.onConnected accepted) he

theorem recvNext_effect {accepted : Bool} {pc : RecvPc} (hw : s.workers t = ⟨.registerRecv a accepted pc, none, none⟩) :
    Effect type junk s (.next t answer) (s.recvNext t a accepted answer pc) := by
  cases pc with
  | check =>
    simp only [recvNext]
    split
    · rename_i hc
      exact .goto hw (.recvSkip accepted hc)
    · rename_i hc
      exact .task hw (.recvOwn accepted (Bool.of_not_eq_false hc))
  | post =>
    simp only [recvNext]
    split
    · rename_i hpost
      exact .task hw (.recvPost accepted hpost)
    · rename_i errCode hfail
      exact .goto hw (.recvFail accepted errCode hfail)
  | error errCode =>
    simp only [recvNext]
    split
    · rename_i hcode
      exact .disconnect hw (.recvFailed answer accepted errCode (by rw [hcode]; nofun))
    · rename_i hcode
      exact .goto hw (.recvLog accepted errCode hcode)
  | reset => exact .task hw (.recvDrop accepted)

theorem readNext_effect {pc : ReadPc K.Prog} (hw : s.workers t = ⟨.processRecv a pc, none, none⟩)
    (he : s.readNext junk t a pc = some s') : Effect type junk s (.next t answer) s' := by
  cases pc with
  | clear numOfBytes =>
    cases he
    exact .task hw (.recvClear numOfBytes)
  | check numOfBytes =>
    simp only [readNext] at he
    split at he
    · rename_i hzero
      cases he
      exact .disconnect hw (.recvEmpty answer numOfBytes (.inl hzero))
    · rename_i hne
      split at he
      · rename_i hwrite
        cases he
        exact .disconnect hw (.recvEmpty answer numOfBytes (.inr (by rw [hwrite])))
      · rename_i b hwrite
        cases he
        exact .task hw (.recvRead numOfBytes b hne hwrite)
  | loop processLen =>
    simp only [readNext] at he
    split at he
    · rename_i size hhead
      cases he
      exact .goto hw (.recvPacket processLen size hhead)
    · rename_i hhead
      split at he
      · cases he
        exact .disconnect hw (.recvLoop answer processLen hhead)
      · split at he
        · cases he
          exact .disconnect hw (.recvLoop answer processLen hhead)
        · rename_i b hread
          cases he
          exact .task hw (.recvAgain processLen b hhead hread)
  | packet processLen prog => exact callback_effect hw (Virtual.onRecvPacket processLen) he

theorem partNext_effect {pc : PartPc K.Prog} (hw : s.workers t = ⟨.processDisconnect a pc, none, none⟩)
    (he : s.partNext t a pc = some s') : Effect type junk s (.next t answer) s' := by
  cases pc with
  | clear =>
    cases he
    exact .task hw .partClear
  | onDisconnected prog =>
    unfold partNext at he
    exact callback_effect hw Virtual.onDisconnected he
  | release =>
    simp only [partNext] at he
    split at he
    · rename_i hlock
      split at he
      · rename_i hmem
        cases he
        exact .lock hw (.release answer hlock hmem)
      · rename_i hmem
        cases he
        exact .releaseFails hw hlock hmem
    · cases he
  | uncount =>
    cases he
    have heff : Effect type junk s (.next t answer) _ := .lock hw (.uncount (a := a) answer)
    rwa [setSession_self { s with lock := none, sessionCount := s.sessionCount - 1 } a] at heff

theorem acceptExNext_effect (hw : s.workers t = ⟨.acceptEx a, none, none⟩) :
    Effect type junk s (.next t answer) (s.acceptExNext t a answer) := by
  unfold acceptExNext
  split
  · rename_i hpost
    exact .task hw (.acceptPost hpost)
  · rename_i hfail
    exact .goto hw (.acceptFail (by rw [hfail]; nofun))

theorem acceptNext_effect (hw : s.workers t = ⟨.processAccept a, none, none⟩) :
    Effect type junk s (.next t answer) (s.acceptNext t a answer) := by
  unfold acceptNext
  dsimp only
  split
  · rename_i hok
    exact .goto hw (.acceptRefused hok)
  · rename_i hok
    exact .task hw (.acceptOpen (Bool.of_not_eq_false hok))

theorem taskNext_effect (hw : s.workers t = ⟨task, none, none⟩) (he : s.taskNext type junk t answer task = some s') :
    Effect type junk s (.next t answer) s' := by
  cases task with
  | idle => cases he
  | registerConnect a pc =>
    cases he
    exact connectNext_effect hw
  | registerAccept =>
    cases he
    exact .create hw (.accept answer)
  | acceptEx a =>
    cases he
    exact acceptExNext_effect hw
  | processAccept a =>
    cases he
    exact acceptNext_effect hw
  | processConnect a accepted pc => exact openNext_effect hw he
  | registerRecv a accepted pc =>
    cases he
    exact recvNext_effect hw
  | processRecv a pc => exact readNext_effect hw he
  | processDisconnect a pc => exact partNext_effect hw he
  | broadcast sendBuffer sessions =>
    cases sessions with
    | nil =>
      cases he
      have heff : Effect type junk s (.next t answer) _ := .lock hw (.broadcastEnd (a := 0) answer sendBuffer)
      rwa [setSession_self { s with lock := none } 0] at heff
    | cons b sessions =>
      obtain ⟨send, hsend, rfl⟩ := Option.map_eq_some_iff.1 he
      exact .callSend hw (.broadcast answer sessions) hsend

theorem next_effect (he : s.next type junk t answer = some s') : Effect type junk s (.next t answer) s' := by
  unfold next at he
  split at he
  · rename_i a pc hc
    cases he
    exact closeNext_effect hc
  · rename_i hc
    split at he
    · rename_i a hs
      obtain ⟨send, hsend, rfl⟩ := Option.map_eq_some_iff.1 he
      exact .sending hc hs hsend
    · rename_i hs
      exact taskNext_effect (worker_eq hc hs) he

theorem dequeue_effect {completion : Completion} {error : Option Nat} (hw : s.workers t = ⟨.idle, none, none⟩)
    (herror : error ≠ some WAIT_TIMEOUT) (he : s.dequeue t error completion = some s') :
    Effect type junk s (.dequeue t completion error) s' := by
  cases completion with
  | connect a =>
    simp only [dequeue] at he
    split at he
    · cases he
    · rename_i ops hops
      cases he
      exact .take hw herror (.connect ops hops)
  | disconnect a =>
    simp only [dequeue] at he
    split at he
    · cases he
    · rename_i ops hops
      cases he
      exact .take hw herror (.disconnect ops hops)
  | accept a =>
    simp only [dequeue] at he
    split at he
    · cases he
    · rename_i accepts haccepts
      cases he
      exact .take hw herror (.accept accepts haccepts)
  | recv a i bytes =>
    simp only [dequeue] at he
    split at he
    · cases he
    · rename_i posted hposted
      split at he
      · rename_i hle
        cases he
        exact .take hw herror (.recv i bytes posted hposted hle)
      · cases he
  | send a i numOfBytes =>
    simp only [dequeue, Option.map_eq_some_iff] at he
    obtain ⟨send, hsend, rfl⟩ := he
    exact .takeSend hw herror hsend

/-- **What a step can do**: the only place that takes `serviceStep` apart. -/
theorem serviceStep_effect [Fintype Tid] (he : serviceStep type junk s act = some s') : Effect type junk s act s' := by
  unfold serviceStep at he
  split at he
  · cases he
  · split at he
    · split at he <;> cases he
      rename_i h
      exact .startAccept (eq_of_isIdle h.1) h.2
    · split at he <;> cases he
      rename_i h
      exact .create (eq_of_isIdle h) .connect
    · exact next_effect he
    · split at he
      · rename_i h
        exact dequeue_effect (eq_of_isIdle h.1) h.2 he
      · cases he
    · split at he
      · rename_i h
        obtain ⟨send, hsend, rfl⟩ := Option.map_eq_some_iff.1 he
        exact .callSend (eq_of_isIdle h.1) (.contents h.2) hsend
      · cases he
    · split at he <;> cases he
      rename_i h
      exact .disconnect (eq_of_isIdle h.1) (.contents h.2)
    · split at he <;> cases he
      rename_i t sendBuffer order h
      obtain ⟨hidle, hlock, hnodup, hset⟩ := h
      have heff : Effect type junk s (.broadcast t sendBuffer order) _ :=
        .lock (eq_of_isIdle hidle) (.broadcast (a := 0) sendBuffer order hlock hnodup hset)
      rwa [setSession_self { s with lock := some t } 0] at heff
    · split at he <;> cases he
      rename_i h
      exact .destroy h.1 h.2.1 h.2.2

end ServiceState

end Geon
