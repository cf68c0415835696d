import GeonServer.Chat
import GeonServer.JobDelivery
/-!
# ChatCore — what the order of the chat depends on

`ChatCore` is the server without what its handlers keep for themselves, and `CoreStep` says what a step can do to it:
push a job, run one, be inside a session's sending code (`chatStep_core`).  Its job queue and the sending sides of its
sessions make steps of their own models.
-/
namespace Geon

open Lts Function

/-- The job queue, the room, the sending sides and where the threads are in them. -/
structure ChatCore (Tid Sid : Type) where
  jobs : JobState Tid Unit (RoomJob Sid)
  players : RoomPlayers Sid
  sends : Sid → SendState Tid SendBufferRef
  sending : Tid → Option Sid
  body : Tid → JobBody
  sendCalls : List (SendBufferRef × Player Sid)
  numBuffers : Nat

variable {Tid Sid : Type}

def ChatState.core (s : ChatState Tid Sid) : ChatCore Tid Sid :=
  ⟨s.jobs, s.players, fun a => (s.sessions a).send, fun t => (s.workers t).sending, fun t => (s.workers t).body,
    s.sendCalls, s.numBuffers⟩

def JobThread.runs {Q : Type*} (th : JobThread Q (RoomJob Sid)) (job : RoomJob Sid) : Prop :=
  ∃ q jobs i fs, th.frames = .inJob q jobs i :: fs ∧ jobs[i]? = some job

/-- The thread is inside a job. -/
def JobThread.inJob {Q Job : Type*} (th : JobThread Q Job) : Bool :=
  match th.frames with
  | .inJob _ _ _ :: _ => true
  | _ => false

variable [DecidableEq Tid] [DecidableEq Sid]

def ChatCore.setSend (c : ChatCore Tid Sid) (t : Tid) (a : Sid) (send : SendState Tid SendBufferRef) :
    ChatCore Tid Sid :=
  { c with
    sends := update c.sends a send,
    sending := update c.sending t (if (send.pcs t).isIdle = true then none else some a) }

/-- **What a step can do** when no `WSASend` fails. -/
inductive CoreStep (c : ChatCore Tid Sid) : ChatCore Tid Sid → Prop
  /-- Only a handler goes on. -/
  | outside : CoreStep c c
  /-- A handler pushes a job; the buffer of a broadcast is new. -/
  | push {t : Tid} {job : RoomJob Sid} {jobs : JobState Tid Unit (RoomJob Sid)} {n : Nat}
      (hbase : (c.jobs.threads t).frames = []) (hsending : c.sending t = none)
      (he : jobStep c.jobs (.push t () (some job) false) = some jobs) (hn : c.numBuffers ≤ n)
      (hnew : ∀ b, job = .BroadCast b → b.index = c.numBuffers ∧ c.numBuffers < n) :
      CoreStep c { c with jobs := jobs, numBuffers := n }
  | pop {t : Tid} {jobs : JobState Tid Unit (RoomJob Sid)} (he : jobStep c.jobs (.pop t) = some jobs) :
      CoreStep c { c with jobs := jobs }
  /-- A thread goes on in `Push` or `Execute`. -/
  | job {t : Tid} {timeout : Bool} {jobs : JobState Tid Unit (RoomJob Sid)} (hout : (c.jobs.threads t).inJob = false)
      (hsending : c.sending t = none) (he : jobStep c.jobs (.next t timeout) = some jobs) :
      CoreStep c { c with jobs := jobs }
  /-- A thread goes on in `Send` or `ProcessSend`. -/
  | send {t : Tid} {a : Sid} {wsaSend : WsaResult} {send : SendState Tid SendBufferRef}
      (hsending : c.sending t = some a)
      (hok : NeverFails (c.sends a) (.next t wsaSend) send)
      (he : sendStep (c.sends a) (.next t wsaSend) = some send) : CoreStep c (c.setSend t a send)
  | complete {t : Tid} {a : Sid} {i numOfBytes : Nat} {send : SendState Tid SendBufferRef}
      (hbase : (c.jobs.threads t).frames = []) (hsending : c.sending t = none)
      (he : sendStep (c.sends a) (.complete t i numOfBytes) = some send) : CoreStep c (c.setSend t a send)
  /-- A handler sends a new buffer, not one of an `S_CHAT`. -/
  | call {t : Tid} {a : Sid} {b : SendBufferRef} {send : SendState Tid SendBufferRef}
      (hbase : (c.jobs.threads t).frames = []) (hsending : c.sending t = none) (hchat : b.isChat = false)
      (he : sendStep (c.sends a) (.send t b) = some send) :
      CoreStep c { c.setSend t a send with numBuffers := c.numBuffers + 1 }
  | disconnect (a : Sid) :
      CoreStep c { c with sends := update c.sends a { c.sends a with connected := false } }
  /-- `Enter` or `Leave`. -/
  | apply {t : Tid} {job : RoomJob Sid} (hrun : (c.jobs.threads t).runs job) (hsending : c.sending t = none)
      (hbody : c.body t = .start) (hjob : ∀ b, job ≠ .BroadCast b) :
      CoreStep c { c with players := job.apply c.players, body := update c.body t .returned }
  /-- `BroadCast` comes to its loop. -/
  | loop {t : Tid} {b : SendBufferRef} (hrun : (c.jobs.threads t).runs (.BroadCast b)) (hsending : c.sending t = none)
      (hbody : c.body t = .start) : CoreStep c { c with body := update c.body t (.loop none) }
  /-- `BroadCast` calls `Send` for the next player. -/
  | broadcast {t : Tid} {b : SendBufferRef} {after : Option Nat} {e : Nat × Player Sid} {tail : List (Nat × Player Sid)}
      {send : SendState Tid SendBufferRef} (hrun : (c.jobs.threads t).runs (.BroadCast b))
      (hsending : c.sending t = none) (hbody : c.body t = .loop after) (hnext : c.players.beyond after = e :: tail)
      (he : sendStep (c.sends e.2.ownerSession) (.send t b) = some send) :
      CoreStep c { c.setSend t e.2.ownerSession send with
        sendCalls := c.sendCalls ++ [(b, e.2)], body := update c.body t (.loop (some e.1)) }
  /-- There is no other player. -/
  | last {t : Tid} {b : SendBufferRef} {after : Option Nat} (hrun : (c.jobs.threads t).runs (.BroadCast b))
      (hsending : c.sending t = none) (hbody : c.body t = .loop after) (hnext : c.players.beyond after = []) :
      CoreStep c { c with body := update c.body t .returned }
  /-- The job returns. -/
  | finish {t : Tid} {jobs : JobState Tid Unit (RoomJob Sid)} (hsending : c.sending t = none)
      (hbody : c.body t = .returned) (he : jobStep c.jobs (.finish t) = some jobs) :
      CoreStep c { c with jobs := jobs, body := update c.body t .start }

/-! ## Every step is one of these -/

omit [DecidableEq Tid] [DecidableEq Sid] in
theorem atBase_iff {s : ChatState Tid Sid} {t : Tid} : s.atBase t = true ↔
    (s.workers t).sending = none ∧ (s.workers t).handler = .none ∧ (s.jobs.threads t).frames = [] := by
  unfold ChatState.atBase
  split
  · rename_i hw hf
    simp [hw, hf]
  · rename_i h
    simp only [Bool.false_eq_true, false_iff, not_and]
    intro h1 h2 h3
    exact h (s.workers t).body (by rw [← h1, ← h2]) h3

theorem update_map {ι α β : Type*} [DecidableEq ι] (f : α → β) (g : ι → α) (i : ι) (x : α) :
    (fun j => f (update g i x j)) = update (fun j => f (g j)) i (f x) :=
  funext fun j => apply_update (fun _ => f) g i x j

omit [DecidableEq Tid] in
theorem core_setSession (s : ChatState Tid Sid) (a : Sid) (session : GameSession Tid Sid) :
    (s.setSession a session).core = { s.core with sends := update s.core.sends a session.send } := by
  simp only [ChatState.core, ChatState.setSession, update_map GameSession.send]

omit [DecidableEq Sid] in
theorem core_setWorker (s : ChatState Tid Sid) (t : Tid) (w : Worker Sid) :
    (s.setWorker t w).core =
      { s.core with sending := update s.core.sending t w.sending, body := update s.core.body t w.body } := by
  simp only [ChatState.core, ChatState.setWorker, update_map Worker.sending, update_map Worker.body]

theorem core_bookkeeping (s : ChatState Tid Sid) (t : Tid) (a : Sid) (handler : Handler Sid)
    (players : List (Player Sid)) (currentPlayer : Option (Player Sid)) (room disconnected : Bool) :
    ((s.setSession a ⟨(s.sessions a).send, players, currentPlayer, room, disconnected⟩).setWorker t
      { s.workers t with handler := handler }).core = s.core := by
  rw [core_setWorker, core_setSession]
  simp only [ChatState.core, update_eq_self]

omit [DecidableEq Sid] in
theorem core_setHandler (s : ChatState Tid Sid) (t : Tid) (handler : Handler Sid) :
    (s.setWorker t { s.workers t with handler := handler }).core = s.core := by
  rw [core_setWorker]
  simp only [ChatState.core, update_eq_self]

theorem core_setSend (s : ChatState Tid Sid) (t : Tid) (a : Sid) (send : SendState Tid SendBufferRef) :
    (s.setSend t a send).core = s.core.setSend t a send := by
  rw [ChatState.setSend, core_setWorker, core_setSession]
  simp only [ChatState.core, ChatCore.setSend, update_eq_self]

theorem callSend_core {s s' : ChatState Tid Sid} {t : Tid} {a : Sid} {b : SendBufferRef}
    (he : s.callSend t a b = some s') :
    ∃ send, sendStep (s.core.sends a) (.send t b) = some send ∧ s'.core = s.core.setSend t a send := by
  obtain ⟨send, hs, rfl⟩ := Option.map_eq_some_iff.1 he
  exact ⟨send, hs, core_setSend ..⟩

theorem doAsync_core {s s₁ s' : ChatState Tid Sid} {t : Tid} {job : RoomJob Sid} {n : Nat} (hbase : s.atBase t = true)
    (h₁ : s₁.core = { s.core with numBuffers := n }) (he : s₁.doAsync t job = some s') (hn : s.numBuffers ≤ n)
    (hnew : ∀ b, job = .BroadCast b → b.index = s.numBuffers ∧ s.numBuffers < n) : CoreStep s.core s'.core := by
  obtain ⟨hsending, -, hframes⟩ := atBase_iff.1 hbase
  obtain ⟨jobs, hjobs, rfl⟩ := Option.map_eq_some_iff.1 he
  have hs₁ : s₁.jobs = s.jobs := congrArg ChatCore.jobs h₁
  have hcore : ChatState.core { s₁ with jobs := jobs } = { s.core with jobs := jobs, numBuffers := n } := by
    have : ChatState.core { s₁ with jobs := jobs } = { s₁.core with jobs := jobs } := rfl
    rw [this, h₁]
  rw [hcore]
  rw [hs₁] at hjobs
  exact .push (c := s.core) hframes hsending hjobs hn hnew

theorem makeAndSend_core {s s₁ s' : ChatState Tid Sid} {t : Tid} {a : Sid} {pkt : ServerPacket}
    (hframes : (s.jobs.threads t).frames = []) (hsending : (s.workers t).sending = none) (h₁ : s₁.core = s.core)
    (he : s₁.makeAndSend t a pkt = some s') (hchat : ∀ n, SendBufferRef.isChat ⟨n, pkt⟩ = false) :
    CoreStep s.core s'.core := by
  obtain ⟨send, hs, hcore⟩ := callSend_core he
  have h₂ : ChatState.core { s₁ with numBuffers := s₁.numBuffers + 1 } = { s.core with
      numBuffers := s.core.numBuffers + 1 } := by
    rw [← h₁]
    rfl
  rw [h₂] at hs hcore
  rw [hcore]
  exact .call (c := s.core) hframes hsending (hchat _) hs

theorem handle_core {s s' : ChatState Tid Sid} {t : Tid} {a : Sid} {call : ClientPacketHandler.Call}
    (hbase : s.atBase t = true) (he : s.handle t a call = some s') : CoreStep s.core s'.core := by
  cases call with
  | Handle_INVALID =>
    cases he
    exact .outside
  | Handle_C_LOGIN pkt =>
    cases he
    rw [core_setHandler]
    exact .outside
  | Handle_C_ENTER_GAME pkt =>
    simp only [ChatState.handle] at he
    split at he
    · cases he
    · exact doAsync_core hbase (core_bookkeeping ..) he (Nat.le_refl _) (fun b hb => by cases hb)
  | Handle_C_CHAT pkt =>
    simp only [ChatState.handle] at he
    refine doAsync_core hbase ?_ he (Nat.le_succ _) (fun b hb => ?_)
    · rfl
    · cases hb
      exact ⟨rfl, Nat.lt_succ_self _⟩

theorem onDisconnected_core {s s' : ChatState Tid Sid} {t : Tid} {a : Sid} (hbase : s.atBase t = true)
    (he : s.onDisconnected t a = some s') : CoreStep s.core s'.core := by
  simp only [ChatState.onDisconnected] at he
  split at he
  · exact doAsync_core hbase (core_bookkeeping ..) he (Nat.le_refl _) (fun b hb => by cases hb)
  · cases he
    rw [core_bookkeeping]
    exact .outside

theorem handlerNext_core {s s' : ChatState Tid Sid} {t : Tid} (hframes : (s.jobs.threads t).frames = [])
    (hsending : (s.workers t).sending = none) (he : s.handlerNext t = some s') : CoreStep s.core s'.core := by
  simp only [ChatState.handlerNext] at he
  split at he
  · cases he
  · split at he
    · cases he
      have : ∀ s₁ : ChatState Tid Sid, s₁.core = s.core → CoreStep s.core s₁.core := fun s₁ h => h ▸ .outside
      exact this _ (core_bookkeeping ..)
    · exact makeAndSend_core hframes hsending (core_setHandler ..) he (fun _ => rfl)
  · split at he
    · cases he
    · exact makeAndSend_core hframes hsending (core_setHandler ..) he (fun _ => rfl)
  · cases he
    rw [core_bookkeeping]
    exact .outside

omit [DecidableEq Sid] in
theorem core_setBody (s : ChatState Tid Sid) (t : Tid) (body : JobBody) :
    (s.setWorker t { s.workers t with body := body }).core = { s.core with body := update s.core.body t body } := by
  rw [core_setWorker]
  simp only [ChatState.core, update_eq_self]

theorem runJob_core {s s' : ChatState Tid Sid} {t : Tid} {job : RoomJob Sid} (hrun : (s.jobs.threads t).runs job)
    (hsending : (s.workers t).sending = none) (he : s.runJob t job = some s') : CoreStep s.core s'.core := by
  unfold ChatState.runJob at he
  split at he
  · cases he
    rename_i player hbody
    have hcore := core_setBody { s with players := Room.Enter s.players player } t .returned
    exact hcore.symm ▸ CoreStep.apply (c := s.core) hrun hsending hbody (fun b hb => by cases hb)
  · cases he
    rename_i player hbody
    have hcore := core_setBody { s with players := Room.Leave s.players player } t .returned
    exact hcore.symm ▸ CoreStep.apply (c := s.core) hrun hsending hbody (fun b hb => by cases hb)
  · cases he
    rename_i b hbody
    rw [core_setBody]
    exact .loop (c := s.core) hrun hsending hbody
  · rename_i after b hbody
    split at he
    · cases he
      rename_i hnext
      rw [core_setBody]
      exact .last (c := s.core) hrun hsending hbody hnext
    · rename_i key player tail hnext
      obtain ⟨send, hs, hcore⟩ := callSend_core he
      rw [core_setBody] at hcore
      rw [hcore]
      rw [core_setBody] at hs
      exact .broadcast (c := s.core) hrun hsending hbody hnext hs
  · cases he
  · rename_i hbody
    obtain ⟨jobs, hjobs, rfl⟩ := Option.map_eq_some_iff.1 he
    have hcore := core_setBody { s with jobs := jobs } t .start
    exact hcore.symm ▸ CoreStep.finish (c := s.core) hsending hbody hjobs

/-- No `WSASend` fails at once. -/
def NoSendFails (s : ChatState Tid Sid) (act : ChatAct Tid Sid) (_ : ChatState Tid Sid) : Prop :=
  match act with
  | .next t _ wsaSend => ∀ a ∈ (s.workers t).sending, ((s.sessions a).send.pcs t).posting = true → wsaSend.failed = none
  | _ => True

instance (s s' : ChatState Tid Sid) (act : ChatAct Tid Sid) : Decidable (NoSendFails s act s') :=
  match act with
  | .next .. => inferInstanceAs (Decidable (∀ a ∈ _, _))
  | .handle .. | .onDisconnected .. | .pop .. | .complete .. | .disconnect .. => .isTrue trivial

/-- **Every step of the server is one of these.** -/
theorem chatStep_core {s s' : ChatState Tid Sid} {act : ChatAct Tid Sid} (he : chatStep s act = some s')
    (hok : NoSendFails s act s') : CoreStep s.core s'.core := by
  cases act with
  | handle t a call =>
    simp only [chatStep] at he
    split at he
    · exact handle_core ‹_› he
    · cases he
  | onDisconnected t a =>
    simp only [chatStep] at he
    split at he
    · rename_i h
      exact onDisconnected_core h.1 he
    · cases he
  | pop t =>
    simp only [chatStep] at he
    split at he
    · obtain ⟨jobs, hjobs, rfl⟩ := Option.map_eq_some_iff.1 he
      exact .pop (c := s.core) hjobs
    · cases he
  | complete t a i numOfBytes =>
    simp only [chatStep] at he
    split at he
    · rename_i hbase
      obtain ⟨hsending, -, hframes⟩ := atBase_iff.1 hbase
      obtain ⟨send, hs, rfl⟩ := Option.map_eq_some_iff.1 he
      rw [core_setSend]
      exact .complete (c := s.core) hframes hsending hs
    · cases he
  | disconnect a =>
    cases he
    rw [core_setSession]
    exact .disconnect (c := s.core) a
  | next t timeout wsaSend =>
    simp only [chatStep, ChatState.next] at he
    cases hsending : (s.workers t).sending with
    | some a =>
      rw [hsending] at he
      obtain ⟨send, hs, rfl⟩ := Option.map_eq_some_iff.1 he
      rw [core_setSend]
      exact .send (c := s.core) hsending (hok a hsending) hs
    | none =>
      rw [hsending] at he
      cases hframes : (s.jobs.threads t).frames with
      | nil =>
        rw [hframes] at he
        exact handlerNext_core hframes hsending he
      | cons f fs =>
        rw [hframes] at he
        cases f with
        | inJob q jobs i =>
          dsimp only at he
          split at he
          · cases he
          · exact runJob_core ⟨q, jobs, i, fs, hframes, ‹_›⟩ hsending he
        | pushing | first | popped | popAll | batch | tick =>
          obtain ⟨jobs, hjobs, rfl⟩ := Option.map_eq_some_iff.1 he
          refine .job (c := s.core) ?_ hsending hjobs
          show (s.jobs.threads t).inJob = false
          rw [JobThread.inJob, hframes]

/-! ## The parts of a step -/

variable {c c' : ChatCore Tid Sid}

/-- The job queue makes a step of its own, or none. -/
theorem CoreStep.jobs (h : CoreStep c c') :
    c'.jobs = c.jobs ∨ ∃ a, jobStep c.jobs a = some c'.jobs ∧ PushesJobs c.jobs a c'.jobs := by
  cases h with
  | push _ _ he => exact .inr ⟨_, he, by simp [PushesJobs]⟩
  | pop he => exact .inr ⟨_, he, trivial⟩
  | job _ _ he => exact .inr ⟨_, he, trivial⟩
  | finish _ _ he => exact .inr ⟨_, he, trivial⟩
  | outside | send | complete | call | disconnect | apply | loop | broadcast | last => exact .inl rfl

theorem setSend_sends (c : ChatCore Tid Sid) (t : Tid) {a : Sid} {send : SendState Tid SendBufferRef}
    {act : SendAct Tid SendBufferRef} (he : sendStep (c.sends a) act = some send)
    (hok : NeverFails (c.sends a) act send) (b : Sid) : (c.setSend t a send).sends b = c.sends b ∨
      ∃ act, sendStep (c.sends b) act = some ((c.setSend t a send).sends b) ∧
        NeverFails (c.sends b) act ((c.setSend t a send).sends b) := by
  by_cases hb : b = a
  · subst hb
    refine .inr ⟨act, ?_, ?_⟩ <;> simpa [ChatCore.setSend]
  · exact .inl (update_of_ne hb ..)

/-- The sending side of each session makes a step of its own, or none. -/
theorem CoreStep.sends (h : CoreStep c c') (b : Sid) : c'.sends b = c.sends b ∨
    ∃ act, sendStep (c.sends b) act = some (c'.sends b) ∧ NeverFails (c.sends b) act (c'.sends b) := by
  cases h with
  | @send t _ _ _ _ hok he => exact setSend_sends c t he hok b
  | @complete t _ _ _ _ _ _ he => exact setSend_sends c t he trivial b
  | @call t _ _ _ _ _ _ he => exact setSend_sends c t he trivial b
  | @broadcast t _ _ _ _ _ _ _ _ _ he => exact setSend_sends c t he trivial b
  | disconnect a =>
    by_cases hb : b = a
    · subst hb
      exact .inr ⟨.disconnect, by simp [sendStep], trivial⟩
    · exact .inl (update_of_ne hb ..)
  | outside | push | pop | job | apply | loop | last | finish => exact .inl rfl

/-! ## What a session has queued -/

/-- The buffer a thread is about to push. -/
def SendPc.entering {Buf : Type*} : SendPc Buf → List Buf
  | .sendPush sendBuffer => [sendBuffer]
  | _ => []

section

variable {Buf : Type*} {s s' : SendState Tid Buf} {t : Tid}

/-- **The push of a send**: what a thread was about to push is pushed by its next step. -/
theorem sendStep_next {wsaSend : WsaResult} (he : sendStep s (.next t wsaSend) = some s') :
    s'.pushed = s.pushed ++ (s.pcs t).entering ∧ (s'.pcs t).entering = [] ∧ ∀ u, u ≠ t → s'.pcs u = s.pcs u := by
  have hgoto : ∀ (s₁ : SendState Tid Buf) (pc : SendPc Buf), s₁.pcs = s.pcs →
      s₁.pushed = s.pushed ++ (s.pcs t).entering → pc.entering = [] →
      (s₁.goto t pc).pushed = s.pushed ++ (s.pcs t).entering ∧ ((s₁.goto t pc).pcs t).entering = [] ∧
        ∀ u, u ≠ t → (s₁.goto t pc).pcs u = s.pcs u := by
    intro s₁ pc hpcs hpushed hpc
    refine ⟨hpushed, by simp [SendState.goto, hpc], fun u hu => ?_⟩
    simp only [SendState.goto, update_of_ne hu, hpcs]
  have hleave : ∀ locked, (if locked = true then .processUnlock else .idle : SendPc Buf).entering = [] := by
    intro locked
    cases locked <;> rfl
  simp only [sendStep] at he
  cases hpc : s.pcs t with
  | idle => simp only [SendState.next, hpc] at he; cases he
  | sendPush b =>
    simp only [SendState.next, hpc] at he
    rw [hpc] at hgoto
    split at he
    · split at he <;> cases he <;> exact hgoto _ _ rfl rfl rfl
    · cases he
  | registerCheck locked | registerDrain locked | registerError locked errorCode | processCheck numOfBytes
  | processLock | processEmpty =>
    simp only [SendState.next, hpc] at he
    rw [hpc] at hgoto
    split at he <;> cases he <;>
      first | exact hgoto _ _ rfl (List.append_nil _).symm rfl | exact hgoto _ _ rfl (List.append_nil _).symm (hleave _)
  | registerPost locked =>
    simp only [SendState.next, hpc] at he
    rw [hpc] at hgoto
    split at he <;> cases he
    · exact hgoto _ _ rfl (List.append_nil _).symm (hleave _)
    · exact hgoto _ _ rfl (List.append_nil _).symm rfl
  | registerReset locked =>
    simp only [SendState.next, hpc] at he
    rw [hpc] at hgoto
    cases he
    exact hgoto _ _ rfl (List.append_nil _).symm (hleave _)
  | processClear numOfBytes | processUnlock =>
    simp only [SendState.next, hpc] at he
    rw [hpc] at hgoto
    cases he
    exact hgoto _ _ rfl (List.append_nil _).symm rfl

theorem sendStep_complete {i numOfBytes : Nat} (he : sendStep s (.complete t i numOfBytes) = some s') :
    s'.pushed = s.pushed ∧ s.pcs t = .idle ∧ (s'.pcs t).entering = [] ∧ ∀ u, u ≠ t → s'.pcs u = s.pcs u := by
  simp only [sendStep] at he
  split at he
  · split at he <;> cases he
    refine ⟨rfl, ‹_›, by simp [SendState.goto, SendPc.entering], fun u hu => ?_⟩
    simp only [SendState.goto, update_of_ne hu]
  · cases he

theorem sendStep_send {b : Buf} (he : sendStep s (.send t b) = some s') :
    s'.pushed = s.pushed ∧ s.pcs t = .idle ∧ ((s'.pcs t).entering = [] ∨ (s'.pcs t).entering = [b]) ∧
      ∀ u, u ≠ t → s'.pcs u = s.pcs u := by
  simp only [sendStep] at he
  split at he
  · rename_i hidle
    cases he
    split
    · exact ⟨rfl, hidle, .inl (by rw [hidle]; rfl), fun _ _ => rfl⟩
    · refine ⟨rfl, hidle, .inr (by simp [SendState.goto, SendPc.entering]), fun u hu => ?_⟩
      simp only [SendState.goto, update_of_ne hu]
  · cases he

end

end Geon
