import GeonServer.ChatHeard
import GeonServer.JobSettles
import GeonServer.SendOrder
import Mathlib.Data.Prod.Lex
/-!
# ChatSettles — the chat comes to rest

Once no packet is handled and nobody disconnects any more, the handlers under way, the room's jobs and the sends they
make come to an end, in every order of their steps and of the completions: a job of the queue is worth more than
anything it may start, a player a broadcast has still to reach more than the `Send` it costs, and a `Send` pays for its
own steps (`settles`).  At the end everyone in the room at a broadcast whose session is still connected has been sent it
(`chat_settles`), unless a handler has met a `_currentPlayer` that `OnDisconnected` has taken away.
-/
namespace Geon

open Lts Function

variable {Tid Sid : Type} [DecidableEq Tid] [DecidableEq Sid]

/-- No packet is handled and nobody disconnects any more; no `WSASend` fails, and no thread takes a batch of jobs before
there is one. -/
def Calm (s : ChatState Tid Sid) (act : ChatAct Tid Sid) (s' : ChatState Tid Sid) : Prop :=
  match act with
  | .handle _ _ _ | .onDisconnected _ _ | .disconnect _ => False
  | .pop _ | .complete _ _ _ _ => True
  | .next t timeout wsaSend => NoSendFails s (.next t timeout wsaSend) s' ∧
      ((s.workers t).sending = none → Proceeds s.jobs (.next t timeout) s'.jobs)

omit [DecidableEq Tid] [DecidableEq Sid] in
theorem Calm.noSendFails {s s' : ChatState Tid Sid} {act : ChatAct Tid Sid} (h : Calm s act s') :
    NoSendFails s act s' := by
  cases act with
  | next t timeout wsaSend => exact h.1
  | _ => trivial

/-! ## What is still to be done -/

/-- A handler's own steps, and the `Send` it ends with. -/
def Handler.weight : Handler Sid → Nat
  | .none => 0
  | .login _ loginPkt => (loginPlayers.length - loginPkt.players.length) + 16
  | .enterGame _ => 16
  | .disconnected _ => 1

/-- What the job that is being run has still to do. -/
def JobBody.weight (players : RoomPlayers Sid) : JobBody → Nat
  | .start => 2 + players.entries.length
  | .loop after => 1 + (players.beyond after).length
  | .returned => 0

variable [Fintype Tid] [Fintype Sid]

def ChatCore.bodyWork (c : ChatCore Tid Sid) : Nat :=
  ∑ t, if (c.jobs.threads t).inJob = true then (c.body t).weight c.players else 0

/-- The handlers, and the sending sides of the sessions. -/
def ChatState.sendWork (s : ChatState Tid Sid) : Nat :=
  tally Handler.weight (fun t => (s.workers t).handler) + tally SendState.work (fun a => (s.sessions a).send)

/-- The jobs of the room first, then the job that is being run, then the handlers and the sends. -/
def ChatState.work (s : ChatState Tid Sid) : Nat ×ₗ Nat ×ₗ Nat :=
  toLex (s.jobs.work, toLex (s.core.bodyWork, s.sendWork))

omit [DecidableEq Tid] [DecidableEq Sid] [Fintype Sid] in
/-- One thread at most is in a job. -/
theorem RoomInv.bodyWork_eq {c : ChatCore Tid Sid} {r : Option Tid} (h : RoomInv c r) :
    c.bodyWork = r.elim 0 (fun t => (c.body t).weight c.players) := by
  cases r with
  | none =>
    refine Finset.sum_eq_zero (fun t _ => if_neg (fun hin => ?_))
    cases (h.inJob t).1 hin
  | some t =>
    rw [ChatCore.bodyWork, Finset.sum_eq_single t]
    · rw [if_pos ((h.inJob t).2 rfl)]
      rfl
    · intro u _ hut
      exact if_neg (fun hin => hut (Option.some.inj ((h.inJob u).1 hin)).symm)
    · exact fun hnot => absurd (Finset.mem_univ t) hnot

variable {s s' : ChatState Tid Sid} {t : Tid}

omit [DecidableEq Tid] [DecidableEq Sid] in
theorem work_of_jobs (h : s'.jobs.work < s.jobs.work) : s'.work < s.work := Prod.Lex.left _ _ h

omit [DecidableEq Tid] [DecidableEq Sid] in
theorem work_of_body (hjobs : s'.jobs = s.jobs) (h : s'.core.bodyWork < s.core.bodyWork) : s'.work < s.work := by
  rw [ChatState.work, ChatState.work, hjobs]
  exact Prod.Lex.right _ (Prod.Lex.left _ _ h)

omit [DecidableEq Tid] [DecidableEq Sid] in
theorem work_of_send (hjobs : s'.jobs = s.jobs) (hbody : s'.core.bodyWork = s.core.bodyWork)
    (h : s'.sendWork < s.sendWork) : s'.work < s.work := by
  rw [ChatState.work, ChatState.work, hjobs, hbody]
  exact Prod.Lex.right _ (Prod.Lex.right _ h)

/-! ## Handlers and sends -/

omit [DecidableEq Sid] in
/-- A thread goes on in its handler, and the sending sides stay. -/
theorem sendWork_setHandler (s₁ : ChatState Tid Sid) (hworkers : s₁.workers = s.workers)
    (hsends : ∀ a, (s₁.sessions a).send = (s.sessions a).send) (t : Tid) (handler : Handler Sid) :
    (s₁.setWorker t { s.workers t with handler := handler }).sendWork + (s.workers t).handler.weight =
      s.sendWork + handler.weight := by
  have hu := tally_update Handler.weight (fun u => (s.workers u).handler) t handler
  have hhandlers : (fun u => ((s₁.setWorker t { s.workers t with handler := handler }).workers u).handler) =
      update (fun u => (s.workers u).handler) t handler := by
    funext u
    rw [ChatState.setWorker, hworkers]
    exact congrFun (update_map Worker.handler s.workers t _) u
  have hsame : (fun a => ((s₁.setWorker t { s.workers t with handler := handler }).sessions a).send) =
      fun a => (s.sessions a).send := funext hsends
  rw [ChatState.sendWork, ChatState.sendWork, hhandlers, hsame]
  omega

/-- A thread goes on in the sending code of a session. -/
theorem sendWork_setSend (s : ChatState Tid Sid) (t : Tid) (a : Sid) (send : SendState Tid SendBufferRef) :
    (s.setSend t a send).sendWork + (s.sessions a).send.work = s.sendWork + send.work := by
  have hu := tally_update SendState.work (fun b => (s.sessions b).send) a send
  have hhandlers : (fun u => ((s.setSend t a send).workers u).handler) = fun u => (s.workers u).handler := by
    funext u
    exact apply_update_of_eq Worker.handler s.workers (by rfl) u
  have hsends : (fun b => ((s.setSend t a send).sessions b).send) = update (fun b => (s.sessions b).send) a send :=
    update_map GameSession.send s.sessions a _
  rw [ChatState.sendWork, ChatState.sendWork, hhandlers, hsends]
  omega

omit [DecidableEq Sid] [Fintype Sid] in
/-- A call of `Send` costs no more than 15. -/
theorem work_send {Buf : Type} {send send' : SendState Tid Buf} {b : Buf}
    (he : sendStep send (.send t b) = some send') : send'.work ≤ send.work + 15 := by
  simp only [sendStep] at he
  split at he
  · rename_i hidle
    cases he
    split
    · omega
    · have hu := tally_update SendPc.weight send.pcs t (.sendPush b)
      simp only [hidle, SendPc.weight] at hu
      simp only [SendState.work, SendState.goto]
      omega
  · cases he

theorem sendWork_makeAndSend {s₁ : ChatState Tid Sid} {a : Sid} {pkt : ServerPacket}
    (he : s₁.makeAndSend t a pkt = some s') : s'.jobs = s₁.jobs ∧ s'.core.bodyWork = s₁.core.bodyWork ∧
      s'.sendWork ≤ s₁.sendWork + 15 := by
  obtain ⟨send, hs, rfl⟩ := Option.map_eq_some_iff.1 he
  refine ⟨rfl, ?_, ?_⟩
  · rw [core_setSend]
    rfl
  · have hset := sendWork_setSend { s₁ with numBuffers := s₁.numBuffers + 1 } t a send
    have hcost := work_send hs
    have hsame : ChatState.sendWork { s₁ with numBuffers := s₁.numBuffers + 1 } = s₁.sendWork := rfl
    rw [hsame] at hset
    omega

/-- A handler ends with its reply. -/
theorem reply_work {a : Sid} {pkt : ServerPacket} (hw : 16 ≤ (s.workers t).handler.weight)
    (he : (s.setWorker t { s.workers t with handler := .none }).makeAndSend t a pkt = some s') : s'.work < s.work := by
  obtain ⟨hjobs, hbody, hsend⟩ := sendWork_makeAndSend he
  have hset := sendWork_setHandler s (s := s) rfl (fun _ => rfl) t .none
  refine work_of_send hjobs ?_ ?_
  · rw [hbody, core_setHandler]
  · have hnone : (Handler.none : Handler Sid).weight = 0 := rfl
    omega

/-- **A handler that goes on has less to do.** -/
theorem handlerNext_work (he : s.handlerNext t = some s') : s'.work < s.work := by
  simp only [ChatState.handlerNext] at he
  split at he
  · cases he
  · rename_i a loginPkt hhandler
    split at he
    · rename_i name type hplayer
      cases he
      obtain ⟨hlt, -⟩ := List.getElem?_eq_some_iff.1 hplayer
      refine work_of_send rfl ?_ ?_
      · rw [core_bookkeeping]
        rfl
      · have hset := sendWork_setHandler (s := s)
          ({ s with
            idGenerator := s.idGenerator + 1
            created := s.created ++ [(⟨s.idGenerator, name, type, a⟩ : Player Sid)] }.setSession a { s.sessions a with
              players := (s.sessions a).players ++ [(⟨s.idGenerator, name, type, a⟩ : Player Sid)] }) rfl
          (fun b => apply_update_of_eq GameSession.send s.sessions (by rfl) b) t
          (.login a { loginPkt with players := loginPkt.players ++ [⟨0, name, type⟩] })
        simp only [hhandler, Handler.weight, List.length_append, List.length_singleton] at hset
        omega
    · exact reply_work (by rw [hhandler, Handler.weight]; omega) he
  · rename_i a hhandler
    split at he
    · cases he
    · exact reply_work (by rw [hhandler, Handler.weight]) he
  · rename_i a hhandler
    cases he
    refine work_of_send rfl ?_ ?_
    · rw [core_bookkeeping]
    · have hset := sendWork_setHandler (s := s)
        (s.setSession a { s.sessions a with currentPlayer := none, players := [] }) rfl
        (fun b => apply_update_of_eq GameSession.send s.sessions (by rfl) b) t .none
      simp only [hhandler, Handler.weight] at hset
      omega

/-! ## The room's jobs -/

omit [DecidableEq Tid] [DecidableEq Sid] [Fintype Sid] in
/-- **The job that is being run goes on.** -/
theorem bodyWork_lt {c c' : ChatCore Tid Sid} {r r' : Option Tid} (h : RoomInv c r) (h' : RoomInv c' r')
    {job : RoomJob Sid} (hrun : (c.jobs.threads t).runs job) (hjobs : c'.jobs = c.jobs)
    (hlt : (c'.body t).weight c'.players < (c.body t).weight c.players) : c'.bodyWork < c.bodyWork := by
  obtain rfl : r = some t := (h.inJob t).1 (inJob_of_runs hrun)
  obtain rfl : r' = some t := (h'.inJob t).1 (by rw [hjobs]; exact inJob_of_runs hrun)
  rw [h.bodyWork_eq, h'.bodyWork_eq]
  exact hlt

theorem runJob_work (hI : JobInv s.jobs) {r r' : Option Tid} (h : RoomInv s.core r) (h' : RoomInv s'.core r')
    {job : RoomJob Sid} (hrun : (s.jobs.threads t).runs job) (he : s.runJob t job = some s') : s'.work < s.work := by
  unfold ChatState.runJob at he
  split at he
  · cases he
    rename_i player hbody
    refine work_of_body rfl (bodyWork_lt h h' hrun rfl ?_)
    rw [core_setBody { s with players := Room.Enter s.players player }]
    simp only [ChatState.core, update_self, hbody, JobBody.weight]
    omega
  · cases he
    rename_i player hbody
    refine work_of_body rfl (bodyWork_lt h h' hrun rfl ?_)
    rw [core_setBody { s with players := Room.Leave s.players player }]
    simp only [ChatState.core, update_self, hbody, JobBody.weight]
    omega
  · cases he
    rename_i b hbody
    refine work_of_body rfl (bodyWork_lt h h' hrun rfl ?_)
    rw [core_setBody]
    simp only [ChatState.core, update_self, hbody, JobBody.weight, OrdMap.beyond]
    omega
  · rename_i after b hbody
    split at he
    · cases he
      rename_i hnext
      refine work_of_body rfl (bodyWork_lt h h' hrun rfl ?_)
      rw [core_setBody]
      simp only [ChatState.core, update_self, hbody, JobBody.weight]
      omega
    · rename_i key player tail hnext
      obtain ⟨send, hs, rfl⟩ := Option.map_eq_some_iff.1 he
      refine work_of_body rfl (bodyWork_lt h h' hrun rfl ?_)
      rw [core_setSend, core_setBody { s with sendCalls := s.sendCalls ++ [(b, player)] }]
      have htail := OrdMap.beyond_tail hnext
      simp only [ChatCore.setSend, ChatState.core, update_self, hbody, JobBody.weight, hnext, htail, List.length_cons]
      omega
  · cases he
  · rename_i hbody
    obtain ⟨jobs, hjobs, rfl⟩ := Option.map_eq_some_iff.1 he
    obtain ⟨u, th, q, jq, g, rfl, hlow⟩ := jobStep_lowers hI hjobs trivial
    exact work_of_jobs hlow.work_lt

/-- **Every step that is left brings the work down.** -/
theorem chatStep_work (hr : ChatReach s) {act : ChatAct Tid Sid} (he : chatStep s act = some s') (hcalm : Calm s act s')
    {r' : Option Tid} (h' : RoomInv s'.core r') : s'.work < s.work := by
  have hI := hr.jobs.inv.1
  have hsend : ∀ {t : Tid} {a : Sid} {sact : SendAct Tid SendBufferRef} {send : SendState Tid SendBufferRef},
      sendStep (s.sessions a).send sact = some send → NoNewCalls (s.sessions a).send sact send →
      (s.setSend t a send).work < s.work := by
    intro t a sact send hs hok
    obtain ⟨w, hfifo⟩ := sendFifo_of_reach ((hr.sends a).mono (fun _ _ _ _ => trivial))
    have hlt := work_step hfifo hs hok
    have hset := sendWork_setSend s t a send
    refine work_of_send rfl ?_ (by omega)
    rw [core_setSend]
    rfl
  cases act with
  | handle t a call => exact absurd hcalm id
  | onDisconnected t a => exact absurd hcalm id
  | disconnect a => exact absurd hcalm id
  | pop t =>
    simp only [chatStep] at he
    split at he
    · obtain ⟨jobs, hjobs, rfl⟩ := Option.map_eq_some_iff.1 he
      obtain ⟨u, th, q, jq, g, rfl, hlow⟩ := jobStep_lowers hI hjobs trivial
      exact work_of_jobs hlow.work_lt
    · cases he
  | complete t a i numOfBytes =>
    simp only [chatStep] at he
    split at he
    · obtain ⟨send, hs, rfl⟩ := Option.map_eq_some_iff.1 he
      exact hsend hs trivial
    · cases he
  | next t timeout wsaSend =>
    simp only [chatStep, ChatState.next] at he
    cases hsending : (s.workers t).sending with
    | some a =>
      rw [hsending] at he
      obtain ⟨send, hs, rfl⟩ := Option.map_eq_some_iff.1 he
      exact hsend hs trivial
    | none =>
      rw [hsending] at he
      cases hframes : (s.jobs.threads t).frames with
      | nil =>
        rw [hframes] at he
        exact handlerNext_work he
      | cons f fs =>
        rw [hframes] at he
        have hjobs : (jobStep s.jobs (.next t timeout)).map (fun jobs => { s with jobs := jobs }) = some s' →
            s'.work < s.work := by
          intro he
          obtain ⟨jobs, hjobs, rfl⟩ := Option.map_eq_some_iff.1 he
          obtain ⟨u, th, q, jq, g, rfl, hlow⟩ := jobStep_lowers hI hjobs (hcalm.2 hsending)
          exact work_of_jobs hlow.work_lt
        cases f with
        | inJob q jobs i =>
          simp only at he
          split at he
          · cases he
          · rename_i job hjob
            obtain ⟨r, h, -⟩ := hr.inv
            exact runJob_work hI h h' ⟨q, jobs, i, fs, hframes, hjob⟩ he
        | _ => exact hjobs he

omit [Fintype Tid] [Fintype Sid] in
/-- The steps that are left are steps of the job queue that are left of it, or none of its own. -/
theorem chatStep_jobs {act : ChatAct Tid Sid} (he : chatStep s act = some s') (hcalm : Calm s act s') :
    s'.jobs = s.jobs ∨ ∃ a, jobStep s.jobs a = some s'.jobs ∧ Proceeds s.jobs a s'.jobs := by
  have hmake : ∀ {s₁ : ChatState Tid Sid} {t : Tid} {a : Sid} {pkt : ServerPacket},
      s₁.makeAndSend t a pkt = some s' → s'.jobs = s₁.jobs := fun he => by
    obtain ⟨send, -, rfl⟩ := Option.map_eq_some_iff.1 he
    rfl
  cases act with
  | handle t a call => exact absurd hcalm id
  | onDisconnected t a => exact absurd hcalm id
  | disconnect a => exact absurd hcalm id
  | pop t =>
    simp only [chatStep] at he
    split at he
    · obtain ⟨jobs, hjobs, rfl⟩ := Option.map_eq_some_iff.1 he
      exact .inr ⟨_, hjobs, trivial⟩
    · cases he
  | complete t a i numOfBytes =>
    simp only [chatStep] at he
    split at he
    · obtain ⟨send, -, rfl⟩ := Option.map_eq_some_iff.1 he
      exact .inl rfl
    · cases he
  | next t timeout wsaSend =>
    simp only [chatStep, ChatState.next] at he
    cases hsending : (s.workers t).sending with
    | some a =>
      rw [hsending] at he
      obtain ⟨send, -, rfl⟩ := Option.map_eq_some_iff.1 he
      exact .inl rfl
    | none =>
      rw [hsending] at he
      simp only at he
      split at he
      · unfold ChatState.handlerNext at he
        split at he
        · cases he
        · split at he
          · cases he
            exact .inl rfl
          · exact .inl ((hmake he).trans rfl)
        · split at he
          · cases he
          · exact .inl ((hmake he).trans rfl)
        · cases he
          exact .inl rfl
      · split at he
        · cases he
        · unfold ChatState.runJob at he
          split at he
          · cases he
            exact .inl rfl
          · cases he
            exact .inl rfl
          · cases he
            exact .inl rfl
          · split at he
            · cases he
              exact .inl rfl
            · obtain ⟨send, -, rfl⟩ := Option.map_eq_some_iff.1 he
              exact .inl rfl
          · cases he
          · obtain ⟨jobs, hjobs, rfl⟩ := Option.map_eq_some_iff.1 he
            exact .inr ⟨_, hjobs, trivial⟩
      · obtain ⟨jobs, hjobs, rfl⟩ := Option.map_eq_some_iff.1 he
        exact .inr ⟨_, hjobs, hcalm.2 hsending⟩

omit [Fintype Sid] in
theorem ChatReach.calm (hr : ChatReach s) {act : ChatAct Tid Sid} (he : chatStep s act = some s') (hcalm : Calm s act s') :
    ChatReach s' := by
  obtain ⟨hI, hb⟩ := hr.jobs.inv
  refine Reach.next hr he ⟨?_, hcalm.noSendFails⟩
  rcases chatStep_jobs he hcalm with hsame | ⟨a, ha, hok⟩
  · rwa [hsame]
  · exact jobStep_bounded hI hb ha hok

omit [Fintype Sid] in
theorem ChatReach.sendReach (hr : ChatReach s) (a : Sid) : SendReach (s.sessions a).send :=
  (hr.sends a).mono (fun s act s' hok => by
    cases act with
    | next t wsaSend =>
      intro hpost _ errorCode herr
      rw [hok hpost] at herr
      cases herr
    | _ => trivial)

/-! ## Where nothing is left -/

/-- No thread is inside anything, no job is queued, and no send is outstanding. -/
structure ChatRest (s : ChatState Tid Sid) : Prop where
  jobs : JobsDone s.jobs
  sends : ∀ a, SendRest (s.sessions a).send
  base : ∀ t, s.atBase t = true

/-- A handler of `C_ENTER_GAME` is about to go through the `_currentPlayer` that `OnDisconnected` has set to null. -/
def NullPlayer (s : ChatState Tid Sid) : Prop :=
  ∃ t a, (s.workers t).handler = .enterGame a ∧ (s.sessions a).currentPlayer = none

omit [DecidableEq Sid] [Fintype Tid] [Fintype Sid] in
theorem sendStep_send_idle {Buf : Type} {send : SendState Tid Buf} (hidle : send.pcs t = .idle) (b : Buf) :
    ∃ send', sendStep send (.send t b) = some send' := by
  simp only [sendStep, hidle]
  exact ⟨_, rfl⟩

omit [Fintype Tid] [Fintype Sid] in
/-- **A thread in a job can go on.** -/
theorem runJob_isSome {r : Option Tid} (h : RoomInv s.core r) (hin : (s.jobs.threads t).inJob = true)
    (hidle : ∀ a, (s.sessions a).send.pcs t = .idle) :
    ∃ q jobs i fs job s', (s.jobs.threads t).frames = .inJob q jobs i :: fs ∧ jobs[i]? = some job ∧
      s.runJob t job = some s' := by
  obtain rfl := (h.inJob t).1 hin
  obtain ⟨before, job, -, ⟨q, jobs, i, fs, hf, hjob⟩, hbody⟩ := h.room
  have hf' : (s.jobs.threads t).frames = .inJob q jobs i :: fs := hf
  refine ⟨q, jobs, i, fs, job, ?_⟩
  have hrun : ∃ s', s.runJob t job = some s' := by
    have hb : s.core.body t = (s.workers t).body := rfl
    rw [hb] at hbody
    unfold ChatState.runJob
    cases hwhere : (s.workers t).body with
    | start => cases job <;> exact ⟨_, rfl⟩
    | loop after =>
      rw [hwhere] at hbody
      obtain ⟨-, b, rfl, -⟩ := hbody
      simp only
      split
      · exact ⟨_, rfl⟩
      · rename_i key player tail hnext
        obtain ⟨send, hs⟩ := sendStep_send_idle (hidle player.ownerSession) b
        exact ⟨_, Option.map_eq_some_iff.2 ⟨send, hs, rfl⟩⟩
    | returned =>
      have hfin : ∃ jobs, jobStep s.jobs (.finish t) = some jobs := by
        simp only [jobStep, hf']
        exact ⟨_, rfl⟩
      obtain ⟨jobs', hjobs'⟩ := hfin
      exact ⟨_, Option.map_eq_some_iff.2 ⟨jobs', hjobs', rfl⟩⟩
  obtain ⟨s', hs'⟩ := hrun
  exact ⟨s', hf', hjob, hs'⟩

omit [Fintype Tid] [Fintype Sid] in
/-- **A handler can go on**, unless its `_currentPlayer` is gone. -/
theorem handlerNext_isSome (hidle : ∀ a, (s.sessions a).send.pcs t = .idle) (hnull : ¬ NullPlayer s)
    (hhandler : (s.workers t).handler ≠ .none) : ∃ s', s.handlerNext t = some s' := by
  have hmake : ∀ (s₁ : ChatState Tid Sid) (a : Sid) (pkt : ServerPacket), s₁.sessions = s.sessions →
      ∃ s', s₁.makeAndSend t a pkt = some s' := by
    intro s₁ a pkt hsessions
    obtain ⟨send, hs⟩ := sendStep_send_idle (hidle a) ⟨s₁.numBuffers, pkt⟩
    rw [← hsessions] at hs
    exact ⟨_, Option.map_eq_some_iff.2 ⟨send, hs, rfl⟩⟩
  unfold ChatState.handlerNext
  cases hh : (s.workers t).handler with
  | none => exact absurd hh hhandler
  | login a loginPkt =>
    simp only
    split
    · exact ⟨_, rfl⟩
    · exact hmake _ _ _ rfl
  | enterGame a =>
    simp only
    cases hplayer : (s.sessions a).currentPlayer with
    | none => exact absurd ⟨t, a, hh, hplayer⟩ hnull
    | some player => exact hmake _ _ _ rfl
  | disconnected a => exact ⟨_, rfl⟩

omit [Fintype Sid] in
/-- **Nothing is left when no step is**, or a handler has lost its player. -/
theorem chatRest_of_stuck [Nonempty Tid] (hr : ChatReach s) (hstuck : Stuck chatStep Calm s) (hnull : ¬ NullPlayer s) :
    ChatRest s := by
  obtain ⟨r, hroom, hq⟩ := hr.inv
  obtain ⟨hI, hb⟩ := hr.jobs.inv
  -- the only step a thread can still take is one that looks for jobs too early
  have hnext : ∀ {t s'}, chatStep s (.next t false .success) = some s' →
      (s.workers t).sending = none ∧ ¬ Proceeds s.jobs (.next t false) s'.jobs := by
    intro t s' he
    have hnot := hstuck _ _ he
    simp only [Calm, not_and, Classical.not_imp] at hnot
    exact hnot (fun _ _ _ => rfl)
  have hsend : ∀ a, SendIdle (s.sessions a).send ∧ (s.sessions a).send.lock = none := by
    intro a
    refine idle_of_no_next (hr.sendReach a).lockHeld (fun t => ?_)
    cases he : (s.sessions a).send.next t .success with
    | none => rfl
    | some send =>
      have hsending : (s.workers t).sending = some a := by
        by_contra hne
        have hidle : (s.sessions a).send.pcs t = .idle := hq.idle t a hne
        simp only [SendState.next, hidle] at he
        cases he
      have hstep : chatStep s (.next t false .success) = some (s.setSend t a send) := by
        simp only [chatStep, ChatState.next, hsending, sendStep, he, Option.map_some]
      have hnone := (hnext hstep).1
      rw [hsending] at hnone
      cases hnone
  have hsending : ∀ t, (s.workers t).sending = none := by
    intro t
    cases hs : (s.workers t).sending with
    | none => rfl
    | some a => exact absurd ((hsend a).1 t) (hr.heard.busy t a hs)
  have hout : ∀ t, (s.jobs.threads t).inJob = false := by
    intro t
    by_contra hin
    rw [Bool.not_eq_false] at hin
    obtain ⟨q, jobs, i, fs, job, s', hf, hjob, hs'⟩ := runJob_isSome hroom hin (fun a => (hsend a).1 t)
    have hstep : chatStep s (.next t false .success) = some s' := by
      simp only [chatStep, ChatState.next, hsending t, hf, hjob, hs']
    refine (hnext hstep).2 (fun q' fs' hf' => ?_)
    rw [hf] at hf'
    cases hf'
  have hframes : ∀ t, (s.jobs.threads t).frames = [] := by
    refine not_all_empty hI hr.jobs.delivery.1 (fun t => frames_of_no_next hI hb t ?_ (fun jobs he => ?_))
    · have hin := hout t
      unfold JobThread.inJob at hin
      simp only [jobStep]
      split
      · rename_i hf
        rw [hf] at hin
        cases hin
      · rfl
    · have hstep : chatStep s (.next t false .success) = some { s with jobs := jobs } := by
        simp only [chatStep, ChatState.next, hsending t]
        cases hf : (s.jobs.threads t).frames with
        | nil => simp only [jobNext, hf] at he; cases he
        | cons f fs =>
          cases f with
          | inJob => simp only [jobNext, hf] at he; cases he
          | _ => simp only [jobStep, he, Option.map_some]
      have hspin := (hnext hstep).2
      simp only [Proceeds, not_forall, not_not] at hspin
      obtain ⟨q, fs, hf, hjobs⟩ := hspin
      exact ⟨q, fs, hf, hjobs⟩
  have hbase : ∀ t, s.atBase t = true := by
    intro t
    refine atBase_iff.2 ⟨hsending t, ?_, hframes t⟩
    by_contra hhandler
    obtain ⟨s', hs'⟩ := handlerNext_isSome (t := t) (fun a => (hsend a).1 t) hnull hhandler
    have hstep : chatStep s (.next t false .success) = some s' := by
      simp only [chatStep, ChatState.next, hsending t, hframes t, hs']
    refine (hnext hstep).2 (fun q' fs' hf' => ?_)
    rw [hframes t] at hf'
    cases hf'
  obtain ⟨t⟩ := ‹Nonempty Tid›
  refine ⟨⟨hframes, ?_⟩, fun a => ⟨(hsend a).1, (hsend a).2, ?_⟩, hbase⟩
  · cases hg : s.jobs.globalQueue with
    | nil => rfl
    | cons q g =>
      have hpop : ∃ jobs, jobStep s.jobs (.pop t) = some jobs := by
        simp only [jobStep, hframes t, hg]
        exact ⟨_, rfl⟩
      obtain ⟨jobs, hjobs⟩ := hpop
      have hstep : chatStep s (.pop t) = some { s with jobs := jobs } := by
        simp only [chatStep, if_pos (hbase t), hjobs, Option.map_some]
      exact absurd trivial (hstuck _ _ hstep)
  · by_contra hne
    have hlen := List.length_pos_iff.2 hne
    have hcomplete : ∃ send, sendStep (s.sessions a).send (.complete t 0 1) = some send := by
      simp only [sendStep, (hsend a).1 t, if_pos hlen]
      exact ⟨_, rfl⟩
    obtain ⟨send, hs⟩ := hcomplete
    have hstep : chatStep s (.complete t a 0 1) = some (s.setSend t a send) := by
      simp only [chatStep, if_pos (hbase t), hs, Option.map_some]
    exact absurd trivial (hstuck _ _ hstep)

/-- Everyone in the room at a broadcast whose session is still connected has been sent it. -/
def AllHeard (s : ChatState Tid Sid) : Prop :=
  ∀ b before after, s.roomJobs = before ++ .BroadCast b :: after → ∀ player, InRoom before player →
    (s.sessions player.ownerSession).send.connected = true →
      b ∈ (s.sessions player.ownerSession).send.posted.flatten

omit [Fintype Sid] in
theorem ChatRest.allHeard (h : ChatRest s) (hr : ChatReach s) : AllHeard s := by
  intro b before after hjobs player hin hc
  have hord := hr.ordered
  have hdone : s.Broadcasted b := hord.quiescent (h.jobs.quiescent ()) b (by
    rw [hjobs]
    exact List.mem_append_right _ List.mem_cons_self)
  have hcalled := hord.all b before after hjobs hdone player hin
  have hcall : b ∈ callsOn s.sendCalls player.ownerSession := by
    obtain ⟨call, hmem, hplayer⟩ := List.mem_map.1 hcalled
    obtain ⟨hmem, hb⟩ := List.mem_filter.1 hmem
    refine List.mem_map.2 ⟨call, List.mem_filter.2 ⟨hmem, ?_⟩, of_decide_eq_true hb⟩
    rw [hplayer]
    exact decide_eq_true rfl
  have hrest := h.sends player.ownerSession
  have hpushed : b ∈ (s.sessions player.ownerSession).send.pushed := by
    rcases hr.heard.heard player.ownerSession hc b hcall with hpushed | ⟨t, ht⟩
    · exact hpushed
    · have hidle : (s.core.sends player.ownerSession).pcs t = .idle := hrest.idle t
      rw [hidle] at ht
      cases ht
  obtain ⟨w, hI⟩ := (hr.sendReach player.ownerSession).inv
  rw [(hI.posted_all hrest hc).2]
  exact hpushed

/-- **The chat comes to rest.**  From every state of a run in which fewer than 2³¹ jobs are pending on the room and no
`WSASend` fails, once no packet is handled and nobody disconnects any more, every order of the remaining steps and
completions is finite in which still no `WSASend` fails and no thread takes a batch of jobs before there is one.  Where it
ends no thread is inside anything, all jobs of the room have been executed, and everyone in the room at a broadcast whose
session is still connected has been sent it; or a handler is about to go through a null `_currentPlayer`. -/
theorem chat_settles [Nonempty Tid] (hr : ChatReach s) :
    Ends chatStep Calm (fun s => NullPlayer s ∨ ChatRest s ∧ AllHeard s) s := by
  refine Ends.of_measure (I := ChatReach) (r := (· < ·)) wellFounded_lt ChatState.work ?_ ?_ ?_ hr
  · exact fun s act s' hr he hcalm => hr.calm he hcalm
  · intro s act s' hr he hcalm
    obtain ⟨r', h', -⟩ := (hr.calm he hcalm).inv
    exact chatStep_work hr he hcalm h'
  · intro s hr hstuck
    by_cases hnull : NullPlayer s
    · exact .inl hnull
    · have hrest := chatRest_of_stuck hr hstuck hnull
      exact .inr ⟨hrest, hrest.allHeard hr⟩

/-- Two players are in the room, and two threads are pushing a broadcast each: wherever the run stops, both players have
been sent both. -/
theorem chat_settles_two : ∃ s, run chatStep ChatOk (chatState₀ : ChatState Two Two) (twoChats.take 39) = some s ∧
    s.sendCalls = [] ∧ (s.sessions .two).send.outstanding.length = 1 ∧ ∀ s', Reach chatStep Calm s s' →
      Stuck chatStep Calm s' → NullPlayer s' ∨ ChatRest s' ∧ AllHeard s' := by
  obtain ⟨s, hrun, hr⟩ := reach_of_run chatStep ChatOk (chatState₀ : ChatState Two Two) (twoChats.take 39)
    (by decide +kernel)
  have hs : (run chatStep ChatOk (chatState₀ : ChatState Two Two) (twoChats.take 39)).map (fun s =>
      (s.sendCalls, (s.sessions .two).send.outstanding.length)) = some ([], 1) := by decide +kernel
  simp only [hrun, Option.map_some, Option.some.injEq, Prod.mk.injEq] at hs
  have : Nonempty Two := ⟨.one⟩
  exact ⟨s, hrun, hs.1, hs.2, fun s' hreach hstuck => (chat_settles hr).stuck hreach hstuck⟩

end Geon
