import GeonServer.ChatCore
/-!
# ChatRun — one job at a time, and what it sends

At most one thread runs a job of the room.  So the room is what its executed jobs make of it and the `Send` calls are
theirs, but for what the running job has not done yet (`RoomInv`); and the broadcasts a session has queued are a part
of the calls on it, in their order (`QueuedInv`).
-/
namespace Geon

open Lts Function

variable {Tid Sid : Type} [DecidableEq Tid] [DecidableEq Sid]

/-! ## Who runs a job -/

/-- The jobs of the room that have been started, in their order. -/
def ChatCore.executed (c : ChatCore Tid Sid) : List (RoomJob Sid) := (c.jobs.queues ()).executed

omit [DecidableEq Tid] [DecidableEq Sid] in
theorem inJob_of_runs {th : JobThread Unit (RoomJob Sid)} {job : RoomJob Sid} (h : th.runs job) : th.inJob = true := by
  obtain ⟨q, jobs, i, fs, hf, -⟩ := h
  rw [JobThread.inJob, hf]

/-- A step of thread `t` that starts no job, and after which it is in none. -/
structure StartsNone {Job : Type*} (s s' : JobState Tid Unit Job) (t : Tid) : Prop where
  others : ∀ u, u ≠ t → s'.threads u = s.threads u
  flat : (s'.threads t).frames.length ≤ 1
  out : (s'.threads t).inJob = false
  executed : (s'.queues ()).executed = (s.queues ()).executed

/-- A step with which thread `t`, who has a token, starts a job. -/
structure Starts (s s' : JobState Tid Unit (RoomJob Sid)) (t : Tid) (job : RoomJob Sid) : Prop where
  others : ∀ u, u ≠ t → s'.threads u = s.threads u
  flat : (s'.threads t).frames.length ≤ 1
  token : 0 < (s.threads t).tokens ()
  runs : (s'.threads t).runs job
  executed : (s'.queues ()).executed = (s.queues ()).executed ++ [job]

omit [DecidableEq Sid] in
theorem startsNone_set {Job : Type*} {s s' : JobState Tid Unit Job} {t : Tid} {th : JobThread Unit Job}
    {jq : JobQueue Tid Job} {g : List Unit} (he : s.set t th () jq g = s') (hlen : th.frames.length ≤ 1)
    (hin : th.inJob = false) (hexec : jq.executed = (s.queues ()).executed) : StartsNone s s' t := by
  subst he
  refine ⟨fun u hu => ?_, ?_, ?_, ?_⟩
  · rw [JobState.set_threads, update_of_ne hu]
  · rw [JobState.set_threads, update_self]
    exact hlen
  · rw [JobState.set_threads, update_self]
    exact hin
  · rw [JobState.set_queues, update_self]
    exact hexec

omit [DecidableEq Sid] in
/-- **A step of `Push` or `Execute`** of a thread that is in nothing else starts a job or leaves the jobs as they
are. -/
theorem jobStep_next {s s' : JobState Tid Unit (RoomJob Sid)} {t : Tid} {timeout : Bool}
    (hflat : (s.threads t).frames.length ≤ 1) (he : jobStep s (.next t timeout) = some s') :
    StartsNone s s' t ∨ ∃ job, Starts s s' t job := by
  simp only [jobStep] at he
  cases hf : (s.threads t).frames with
  | nil => simp only [jobNext, hf] at he; cases he
  | cons f fs =>
    rw [hf] at hflat
    obtain rfl : fs = [] := List.length_eq_zero_iff.1 (by simp only [List.length_cons] at hflat; omega)
    cases f with
    | pushing q job pushOnly prevCount =>
      simp only [jobNext, hf, Option.some.injEq] at he
      exact .inl (startsNone_set he (by split <;> simp)
        (by by_cases h0 : prevCount = 0#32 <;> simp [JobThread.inJob, h0]) rfl)
    | first q pushOnly | tick q =>
      simp only [jobNext, hf] at he
      split at he <;> rw [Option.some.injEq] at he <;> exact .inl (startsNone_set he (by simp) rfl rfl)
    | popped q | popAll q =>
      simp only [jobNext, hf, Option.some.injEq] at he
      exact .inl (startsNone_set he (by simp) rfl rfl)
    | inJob q jobs i => simp only [jobNext, hf] at he; cases he
    | batch q jobs i =>
      simp only [jobNext, hf] at he
      split at he
      · split at he <;> cases he
        rename_i job hjob
        refine .inr ⟨job, fun u hu => ?_, ?_, ?_, ?_, ?_⟩
        · rw [JobState.set_threads, update_of_ne hu]
        · rw [JobState.set_threads, update_self, List.length_singleton]
        · simp [JobThread.tokens, hf, JobFrame.tokens]
        · exact ⟨q, jobs, i, [], by rw [JobState.set_threads, update_self], hjob⟩
        · rw [JobState.set_queues, update_self]
      · split at he <;> rw [Option.some.injEq] at he <;> exact .inl (startsNone_set he (by simp) rfl rfl)

theorem jobStep_push {Job : Type*} {s s' : JobState Tid Unit Job} {t : Tid} {job : Option Job} {pushOnly : Bool}
    (hbase : (s.threads t).frames = []) (he : jobStep s (.push t () job pushOnly) = some s') : StartsNone s s' t := by
  simp only [jobStep] at he
  split at he
  · rw [Option.some.injEq] at he
    exact startsNone_set he (by simp [hbase]) rfl rfl
  · cases he

theorem jobStep_pop {Job : Type*} {s s' : JobState Tid Unit Job} {t : Tid} (he : jobStep s (.pop t) = some s') :
    StartsNone s s' t ∧ (s.threads t).frames = [] := by
  simp only [jobStep] at he
  split at he
  · rw [Option.some.injEq] at he
    exact ⟨startsNone_set he (by simp) rfl rfl, ‹_›⟩
  · cases he

theorem jobStep_finish {Job : Type*} {s s' : JobState Tid Unit Job} {t : Tid} (hflat : (s.threads t).frames.length ≤ 1)
    (he : jobStep s (.finish t) = some s') : StartsNone s s' t ∧ (s.threads t).inJob = true := by
  simp only [jobStep] at he
  split at he
  · rename_i hf
    rw [Option.some.injEq] at he
    rw [hf] at hflat
    exact ⟨startsNone_set he hflat rfl rfl, by rw [JobThread.inJob, hf]⟩
  · cases he

/-! ## The invariant -/

def callsOn (calls : List (SendBufferRef × Player Sid)) (a : Sid) : List SendBufferRef :=
  (calls.filter (fun c => c.2.ownerSession = a)).map Prod.fst

/-- How far the running job has come. -/
def ChatCore.BodyOk (c : ChatCore Tid Sid) (before : List (RoomJob Sid)) (job : RoomJob Sid) : JobBody → Prop
  | .start => c.players = roomAfter before ∧ c.sendCalls = roomCalls before
  | .loop after => c.players = roomAfter before ∧ ∃ b, job = .BroadCast b ∧
      c.sendCalls ++ (c.players.beyond after).map (fun e => (b, e.2)) = roomCalls (before ++ [job])
  | .returned => c.players = roomAfter (before ++ [job]) ∧ c.sendCalls = roomCalls (before ++ [job])

/-- The room is what the executed jobs make of it, with what thread `r` has not done yet of the job it is running. -/
def ChatCore.RoomOk (c : ChatCore Tid Sid) : Option Tid → Prop
  | none => c.players = roomAfter c.executed ∧ c.sendCalls = roomCalls c.executed
  | some t => ∃ before job, c.executed = before ++ [job] ∧ (c.jobs.threads t).runs job ∧
      c.BodyOk before job (c.body t)

/-- **The room's invariant**, with the thread that is in a job. -/
structure RoomInv (c : ChatCore Tid Sid) (r : Option Tid) : Prop where
  flat : ∀ t, (c.jobs.threads t).frames.length ≤ 1
  inJob : ∀ t, (c.jobs.threads t).inJob = true ↔ r = some t
  body : ∀ t, r ≠ some t → c.body t = .start
  room : c.RoomOk r

/-- What a thread, if there is one, is about to push. -/
def SendState.arriving {Buf : Type*} (s : SendState Tid Buf) : Option Tid → List Buf
  | none => []
  | some t => (s.pcs t).entering

/-- **What the sessions have queued** of the broadcasts is a part of the calls on them. -/
structure QueuedInv (c : ChatCore Tid Sid) (r : Option Tid) : Prop where
  idle : ∀ t a, c.sending t ≠ some a → (c.sends a).pcs t = .idle
  chat : ∀ t a, r ≠ some t → ∀ b ∈ ((c.sends a).pcs t).entering, b.isChat = false
  queued : ∀ a, (((c.sends a).pushed ++ (c.sends a).arriving r).filter SendBufferRef.isChat).Sublist
    (callsOn c.sendCalls a)

omit [DecidableEq Tid] [DecidableEq Sid] in
theorem roomInv₀ : RoomInv (chatState₀ : ChatState Tid Sid).core none where
  flat _ := Nat.zero_le _
  inJob t := by simp [ChatState.core, chatState₀, jobState₀, JobThread.inJob]
  body _ _ := rfl
  room := ⟨rfl, rfl⟩

omit [DecidableEq Tid] in
theorem queuedInv₀ : QueuedInv (chatState₀ : ChatState Tid Sid).core none where
  idle _ _ _ := rfl
  chat _ _ _ b hb := by cases hb
  queued _ := .refl _

variable {c c' : ChatCore Tid Sid} {r : Option Tid} {t : Tid}

omit [DecidableEq Tid] [DecidableEq Sid] in
theorem RoomInv.out (h : RoomInv c r) (ht : (c.jobs.threads t).inJob = false) : r ≠ some t := fun hr => by
  rw [(h.inJob t).2 hr] at ht
  cases ht

omit [DecidableEq Tid] in
theorem QueuedInv.arriving_nil (h : QueuedInv c r) (ht : c.sending t = none) (a : Sid) :
    (c.sends a).arriving (some t) = [] := by
  rw [SendState.arriving, h.idle t a (by rw [ht]; simp)]
  rfl

/-! ## Steps of the job queue -/

omit [DecidableEq Sid] in
theorem RoomInv.jobs (h : RoomInv c r) {jobs : JobState Tid Unit (RoomJob Sid)} {n : Nat}
    (hs : StartsNone c.jobs jobs t) (ht : (c.jobs.threads t).inJob = false) :
    RoomInv { c with jobs := jobs, numBuffers := n } r := by
  have hr := h.out ht
  refine ⟨fun u => ?_, fun u => ?_, h.body, ?_⟩
  · by_cases hu : u = t
    · exact hu ▸ hs.flat
    · exact hs.others u hu ▸ h.flat u
  · by_cases hu : u = t
    · subst hu
      simp only [hs.out, Bool.false_eq_true, false_iff]
      exact hr
    · rw [← h.inJob u, ← hs.others u hu]
  · cases r with
    | none => exact ⟨h.room.1.trans (congrArg roomAfter hs.executed.symm),
        h.room.2.trans (congrArg roomCalls hs.executed.symm)⟩
    | some u =>
      obtain ⟨before, job, hex, hrun, hbody⟩ := h.room
      have hu : u ≠ t := fun hut => hr (hut ▸ rfl)
      exact ⟨before, job, hs.executed.trans hex, hs.others u hu ▸ hrun, hbody⟩

omit [DecidableEq Tid] in
theorem QueuedInv.jobs (h : QueuedInv c r) (jobs : JobState Tid Unit (RoomJob Sid)) (n : Nat) :
    QueuedInv { c with jobs := jobs, numBuffers := n } r := ⟨h.idle, h.chat, h.queued⟩

omit [DecidableEq Sid] in
/-- **One job at a time**: the token of who starts a job is the only one. -/
theorem RoomInv.nobody [Fintype Tid] (h : RoomInv c r) (hJ : JobInv c.jobs) {jobs : JobState Tid Unit (RoomJob Sid)}
    {job : RoomJob Sid} (hs : Starts c.jobs jobs t job) (ht : (c.jobs.threads t).inJob = false) : r = none := by
  cases r with
  | none => rfl
  | some u =>
    have hu : u ≠ t := fun hut => h.out ht (hut ▸ rfl)
    have hin := (h.inJob u).2 rfl
    have htoken : 0 < (c.jobs.threads u).tokens () := by
      rw [JobThread.inJob] at hin
      split at hin
      · rename_i hf
        simp [JobThread.tokens, hf, JobFrame.tokens]
      · cases hin
    have htwo := add_le_tally (JobThread.tokens ()) c.jobs.threads hu
    have hone := hJ.token ()
    rw [tokens] at hone
    have := hs.token
    split at hone <;> omega

omit [DecidableEq Sid] in
theorem RoomInv.starts (h : RoomInv c none) {jobs : JobState Tid Unit (RoomJob Sid)} {job : RoomJob Sid}
    (hs : Starts c.jobs jobs t job) : RoomInv { c with jobs := jobs } (some t) := by
  refine ⟨fun u => ?_, fun u => ?_, fun u _ => h.body u (by simp), ?_⟩
  · by_cases hu : u = t
    · exact hu ▸ hs.flat
    · exact hs.others u hu ▸ h.flat u
  · by_cases hu : u = t
    · subst hu
      simp only [inJob_of_runs hs.runs]
    · have : (c.jobs.threads u).inJob = true ↔ none = some u := h.inJob u
      simp only [hs.others u hu, this, reduceCtorEq, false_iff, Option.some.injEq]
      exact Ne.symm hu
  · refine ⟨c.executed, job, hs.executed, hs.runs, ?_⟩
    show ChatCore.BodyOk _ _ _ (c.body t)
    rw [h.body t (by simp)]
    exact h.room

omit [DecidableEq Tid] in
theorem QueuedInv.starts (h : QueuedInv c none) (ht : c.sending t = none) (jobs : JobState Tid Unit (RoomJob Sid)) :
    QueuedInv { c with jobs := jobs } (some t) := by
  refine ⟨h.idle, fun u a _ => h.chat u a (by simp), fun a => ?_⟩
  have hq := h.queued a
  rwa [SendState.arriving, ← h.arriving_nil ht a] at hq

omit [DecidableEq Sid] in
theorem RoomInv.finish (h : RoomInv c (some t)) {jobs : JobState Tid Unit (RoomJob Sid)} (hs : StartsNone c.jobs jobs t)
    (hbody : c.body t = .returned) : RoomInv { c with jobs := jobs, body := update c.body t .start } none := by
  obtain ⟨before, job, hex, -, hdone⟩ := h.room
  rw [hbody] at hdone
  refine ⟨fun u => ?_, fun u => ?_, fun u _ => ?_, ?_⟩
  · by_cases hu : u = t
    · exact hu ▸ hs.flat
    · exact hs.others u hu ▸ h.flat u
  · by_cases hu : u = t
    · subst hu
      simp [hs.out]
    · have := h.inJob u
      simp only [hs.others u hu, this, reduceCtorEq, iff_false, Option.some.injEq]
      exact Ne.symm hu
  · show update c.body t .start u = .start
    by_cases hu : u = t
    · rw [hu, update_self]
    · rw [update_of_ne hu]
      exact h.body u (fun hut => hu (Option.some.inj hut).symm)
  · have hex' := (hs.executed.trans hex).symm
    exact ⟨hdone.1.trans (congrArg roomAfter hex'), hdone.2.trans (congrArg roomCalls hex')⟩

theorem QueuedInv.finish (h : QueuedInv c (some t)) (ht : c.sending t = none) (jobs : JobState Tid Unit (RoomJob Sid))
    (body : Tid → JobBody) : QueuedInv { c with jobs := jobs, body := body } none := by
  refine ⟨h.idle, fun u a _ b hb => ?_, fun a => ?_⟩
  · by_cases hu : u = t
    · subst hu
      rw [h.idle u a (by rw [ht]; simp)] at hb
      cases hb
    · exact h.chat u a (fun hut => hu (Option.some.inj hut).symm) b hb
  · have hq := h.queued a
    rwa [h.arriving_nil ht a] at hq

/-! ## Steps of the sending code -/

theorem RoomInv.setSend (h : RoomInv c r) (t : Tid) (a : Sid) (send : SendState Tid SendBufferRef) (n : Nat) :
    RoomInv { c.setSend t a send with numBuffers := n } r :=
  ⟨h.flat, h.inJob, h.body, by cases r <;> exact h.room⟩

/-- **Thread `t` steps in the sending code of session `a`**, with what that does to what the session has queued. -/
theorem QueuedInv.setSend (h : QueuedInv c r) {a : Sid} {send : SendState Tid SendBufferRef}
    {calls : List (SendBufferRef × Player Sid)} {body : Tid → JobBody} {n : Nat}
    (hself : ∀ b, b ≠ a → c.sending t ≠ some b) (hothers : ∀ u, u ≠ t → send.pcs u = (c.sends a).pcs u)
    (hchat : r ≠ some t → ∀ b ∈ (send.pcs t).entering, b.isChat = false)
    (hcalls : ∀ b, b ≠ a → callsOn calls b = callsOn c.sendCalls b)
    (hqueued : ((send.pushed ++ send.arriving r).filter SendBufferRef.isChat).Sublist (callsOn calls a)) :
    QueuedInv { c.setSend t a send with sendCalls := calls, body := body, numBuffers := n } r := by
  refine ⟨fun u b hne => ?_, fun u b hr => ?_, fun b => ?_⟩ <;>
    simp only [ChatCore.setSend] at * <;> by_cases hb : b = a
  · subst hb
    rw [update_self]
    by_cases hu : u = t
    · subst hu
      rw [update_self] at hne
      cases hpc : send.pcs u <;> simp [hpc, SendPc.isIdle] at hne ⊢
    · rw [update_of_ne hu] at hne
      rw [hothers u hu]
      exact h.idle u b hne
  · rw [update_of_ne hb]
    by_cases hu : u = t
    · exact h.idle u b (hu ▸ hself b hb)
    · rw [update_of_ne hu] at hne
      exact h.idle u b hne
  · subst hb
    rw [update_self]
    by_cases hu : u = t
    · subst hu
      exact hchat hr
    · rw [hothers u hu]
      exact h.chat u b hr
  · rw [update_of_ne hb]
    exact h.chat u b hr
  · subst hb
    rwa [update_self]
  · rw [update_of_ne hb, hcalls b hb]
    exact h.queued b

omit [DecidableEq Tid] [DecidableEq Sid] in
theorem arriving_others {send send' : SendState Tid SendBufferRef} (hr : r ≠ some t)
    (hothers : ∀ u, u ≠ t → send'.pcs u = send.pcs u) : send'.arriving r = send.arriving r := by
  cases r with
  | none => rfl
  | some u => rw [SendState.arriving, SendState.arriving, hothers u (fun hut => hr (hut ▸ rfl))]

theorem QueuedInv.next (h : QueuedInv c r) {a : Sid} {wsaSend : WsaResult} {send : SendState Tid SendBufferRef}
    (hsending : c.sending t = some a) (he : sendStep (c.sends a) (.next t wsaSend) = some send) :
    QueuedInv (c.setSend t a send) r := by
  obtain ⟨hpushed, hnil, hothers⟩ := sendStep_next he
  refine h.setSend (n := c.numBuffers) (fun b hb hs => ?_) hothers (fun _ b hb => ?_) (fun _ _ => rfl) ?_
  · rw [hsending] at hs
    exact hb (Option.some.inj hs).symm
  · rw [hnil] at hb
    cases hb
  · have hq := h.queued a
    by_cases hr : r = some t
    · subst hr
      rwa [SendState.arriving, hnil, hpushed, List.append_nil]
    · have hdrop : ((c.sends a).pcs t).entering.filter SendBufferRef.isChat = [] :=
        List.filter_eq_nil_iff.2 (fun b hb => by rw [h.chat t a hr b hb]; exact Bool.false_ne_true)
      rwa [arriving_others hr hothers, hpushed, List.filter_append, List.filter_append, hdrop, List.append_nil,
        ← List.filter_append]

theorem QueuedInv.comes (h : QueuedInv c r) {a : Sid} {send : SendState Tid SendBufferRef} {n : Nat} (hr : r ≠ some t)
    (hsending : c.sending t = none) (hpushed : send.pushed = (c.sends a).pushed)
    (hchat : ∀ b ∈ (send.pcs t).entering, b.isChat = false) (hothers : ∀ u, u ≠ t → send.pcs u = (c.sends a).pcs u) :
    QueuedInv { c.setSend t a send with numBuffers := n } r := by
  refine h.setSend (fun b _ hs => ?_) hothers (fun _ => hchat) (fun _ _ => rfl) ?_
  · rw [hsending] at hs
    cases hs
  · rw [arriving_others hr hothers, hpushed]
    exact h.queued a

theorem callsOn_concat (calls : List (SendBufferRef × Player Sid)) (b : SendBufferRef) (player : Player Sid) (a : Sid) :
    callsOn (calls ++ [(b, player)]) a = callsOn calls a ++ if player.ownerSession = a then [b] else [] := by
  rw [callsOn, List.filter_append, List.map_append, callsOn]
  by_cases ha : player.ownerSession = a <;> simp [ha]

/-! ## Steps of the running job -/

theorem QueuedInv.broadcast (h : QueuedInv c (some t)) {b : SendBufferRef} {player : Player Sid}
    {send : SendState Tid SendBufferRef} {body : Tid → JobBody} (hsending : c.sending t = none)
    (he : sendStep (c.sends player.ownerSession) (.send t b) = some send) :
    QueuedInv { c.setSend t player.ownerSession send with sendCalls := c.sendCalls ++ [(b, player)], body := body }
      (some t) := by
  obtain ⟨hpushed, -, hentering, hothers⟩ := sendStep_send he
  refine h.setSend (n := c.numBuffers) (fun b _ hs => ?_) hothers (fun hr => absurd rfl hr) (fun a ha => ?_) ?_
  · rw [hsending] at hs
    cases hs
  · rw [callsOn_concat, if_neg (Ne.symm ha), List.append_nil]
  · have hq := h.queued player.ownerSession
    rw [h.arriving_nil hsending, List.append_nil] at hq
    rw [callsOn_concat, if_pos rfl, hpushed, SendState.arriving, List.filter_append]
    refine hq.append ?_
    rcases hentering with hnil | hone
    · rw [hnil]
      exact List.nil_sublist _
    · rw [hone]
      exact List.filter_sublist

omit [DecidableEq Tid] [DecidableEq Sid] in
theorem runs_unique {th : JobThread Unit (RoomJob Sid)} {job job' : RoomJob Sid} (h : th.runs job)
    (h' : th.runs job') : job = job' := by
  obtain ⟨q, jobs, i, fs, hf, hjob⟩ := h
  obtain ⟨q', jobs', i', fs', hf', hjob'⟩ := h'
  rw [hf] at hf'
  cases hf'
  rw [hjob] at hjob'
  exact Option.some.inj hjob'

omit [DecidableEq Sid] in
/-- **The running job goes on.** -/
theorem RoomInv.goesOn (h : RoomInv c r) (c' : ChatCore Tid Sid) {job : RoomJob Sid}
    (hrun : (c.jobs.threads t).runs job) {body : JobBody}
    (hjobs : c'.jobs = c.jobs) (hbody : c'.body = update c.body t body)
    (hstep : ∀ before, c.BodyOk before job (c.body t) → c'.BodyOk before job body) : RoomInv c' r ∧ r = some t := by
  obtain rfl : r = some t := (h.inJob t).1 (inJob_of_runs hrun)
  obtain ⟨before, job', hex, hrun', hok⟩ := h.room
  obtain rfl := runs_unique hrun hrun'
  refine ⟨⟨hjobs ▸ h.flat, hjobs ▸ h.inJob, fun u hu => ?_, before, job, ?_, hjobs ▸ hrun, ?_⟩, rfl⟩
  · rw [hbody, update_of_ne (fun hut => hu (congrArg some hut.symm))]
    exact h.body u hu
  · rw [ChatCore.executed, hjobs]
    exact hex
  · rw [hbody, update_self]
    exact hstep before hok

omit [DecidableEq Tid] [DecidableEq Sid] in
theorem RoomJob.calls_eq_nil {job : RoomJob Sid} (hjob : ∀ b, job ≠ .BroadCast b) (players : RoomPlayers Sid) :
    job.calls players = [] := by
  cases job with
  | Enter | Leave => rfl
  | BroadCast b => exact absurd rfl (hjob b)

/-! ## What has been called -/

omit [DecidableEq Tid] [DecidableEq Sid] in
theorem RoomInv.calls_first (h : RoomInv c r) : c.sendCalls <+: roomCalls c.executed := by
  cases r with
  | none => exact h.room.2 ▸ List.prefix_rfl
  | some t =>
    obtain ⟨before, job, hex, -, hok⟩ := h.room
    rw [hex]
    cases hbody : c.body t with
    | start =>
      rw [hbody] at hok
      rw [hok.2, roomCalls_concat]
      exact List.prefix_append _ _
    | loop after =>
      rw [hbody] at hok
      obtain ⟨-, b, -, hcalls⟩ := hok
      rw [← hcalls]
      exact List.prefix_append _ _
    | returned =>
      rw [hbody] at hok
      rw [hok.2]

omit [DecidableEq Tid] [DecidableEq Sid] in
/-- A broadcast that was executed and is not running any more has made its calls. -/
theorem RoomInv.calls_done (h : RoomInv c r) {b : SendBufferRef}
    (hdone : ∀ t, ¬ (c.jobs.threads t).runs (.BroadCast b)) :
    callsOf c.sendCalls b = callsOf (roomCalls c.executed) b := by
  cases r with
  | none => exact congrArg (callsOf · b) h.room.2
  | some t =>
    obtain ⟨before, job, hex, hrun, hok⟩ := h.room
    have hjob : job ≠ .BroadCast b := fun hj => hdone t (hj ▸ hrun)
    have hother : ∀ {players : RoomPlayers Sid}, callsOf (job.calls players) b = [] := fun {players} => by
      refine callsOf_eq_nil _ (fun call hcall hb => hjob ?_)
      have hone : call ∈ roomCallsFrom players [job] := by
        rw [roomCallsFrom, roomCallsFrom, List.append_nil]
        exact hcall
      rw [← hb, List.mem_singleton.1 (broadcast_of_call hone)]
    rw [hex]
    cases hbody : c.body t with
    | start =>
      rw [hbody] at hok
      rw [roomCalls_concat, callsOf_append, hother, List.append_nil, hok.2]
    | loop after =>
      rw [hbody] at hok
      obtain ⟨-, b', rfl, hcalls⟩ := hok
      rw [← hcalls, callsOf_append, callsOf_eq_nil (List.map _ _), List.append_nil]
      intro call hcall hb
      obtain ⟨e, -, rfl⟩ := List.mem_map.1 hcall
      exact hjob (congrArg _ hb)
    | returned =>
      rw [hbody] at hok
      rw [hok.2]

omit [DecidableEq Tid] in
theorem RoomInv.disconnect (h : RoomInv c r) (a : Sid) :
    RoomInv { c with sends := update c.sends a { c.sends a with connected := false } } r :=
  ⟨h.flat, h.inJob, h.body, by cases r <;> exact h.room⟩

omit [DecidableEq Tid] in
theorem QueuedInv.disconnect (h : QueuedInv c r) (a : Sid) :
    QueuedInv { c with sends := update c.sends a { c.sends a with connected := false } } r := by
  have hpcs : ∀ b, (update c.sends a { c.sends a with connected := false } b).pcs = (c.sends b).pcs := fun b =>
    apply_update_of_eq SendState.pcs c.sends (by rfl) b
  have hpushed : ∀ b, (update c.sends a { c.sends a with connected := false } b).pushed = (c.sends b).pushed := fun b =>
    apply_update_of_eq SendState.pushed c.sends (by rfl) b
  refine ⟨fun u b hu => ?_, fun u b hu => ?_, fun b => ?_⟩
  · simp only [hpcs]
    exact h.idle u b hu
  · simp only [hpcs]
    exact h.chat u b hu
  · have harriving : (update c.sends a { c.sends a with connected := false } b).arriving r = (c.sends b).arriving r := by
      cases r with
      | none => rfl
      | some u => rw [SendState.arriving, hpcs, SendState.arriving]
    simp only [hpushed, harriving]
    exact h.queued b

/-! ## Every step -/

variable [Fintype Tid]

/-- **The step lemma of the two invariants.** -/
theorem CoreStep.inv (hstep : CoreStep c c') (hJ : JobInv c.jobs) (h : RoomInv c r) (hq : QueuedInv c r) :
    ∃ r', RoomInv c' r' ∧ QueuedInv c' r' := by
  have hbase : ∀ {t}, (c.jobs.threads t).frames = [] → (c.jobs.threads t).inJob = false := fun hf => by
    rw [JobThread.inJob, hf]
  cases hstep with
  | outside => exact ⟨r, h, hq⟩
  | push hf hsending he hn hnew => exact ⟨r, h.jobs (jobStep_push hf he) (hbase hf), hq.jobs _ _⟩
  | pop he =>
    obtain ⟨hs, hf⟩ := jobStep_pop he
    exact ⟨r, h.jobs hs (hbase hf), hq.jobs _ _⟩
  | @job t timeout jobs hout hsending he =>
    rcases jobStep_next (h.flat t) he with hs | ⟨job, hs⟩
    · exact ⟨r, h.jobs hs hout, hq.jobs _ _⟩
    · obtain rfl := h.nobody hJ hs hout
      exact ⟨some t, h.starts hs, hq.starts hsending jobs⟩
  | send hsending hok he => exact ⟨r, h.setSend _ _ _ c.numBuffers, hq.next hsending he⟩
  | complete hf hsending he =>
    obtain ⟨hpushed, -, hnil, hothers⟩ := sendStep_complete he
    exact ⟨r, h.setSend _ _ _ c.numBuffers, hq.comes (n := c.numBuffers) (h.out (hbase hf)) hsending hpushed
      (fun b hb => by rw [hnil] at hb; cases hb) hothers⟩
  | @call t a b send hf hsending hchat he =>
    obtain ⟨hpushed, -, hentering, hothers⟩ := sendStep_send he
    refine ⟨r, h.setSend _ _ _ _, hq.comes (h.out (hbase hf)) hsending hpushed (fun b' hb' => ?_) hothers⟩
    rcases hentering with hnil | hone
    · rw [hnil] at hb'
      cases hb'
    · rw [hone] at hb'
      rwa [List.mem_singleton.1 hb']
  | disconnect a => exact ⟨r, h.disconnect a, hq.disconnect a⟩
  | @apply t job hrun hsending hbody hjob =>
    obtain ⟨hr, rfl⟩ := h.goesOn { c with
        players := job.apply c.players, body := update c.body t .returned } hrun rfl rfl (fun before hok => by
      rw [hbody] at hok
      refine ⟨by rw [roomAfter_concat, ← hok.1], ?_⟩
      rw [roomCalls_concat, job.calls_eq_nil hjob, List.append_nil]
      exact hok.2)
    exact ⟨some t, hr, hq.idle, hq.chat, hq.queued⟩
  | @loop t b hrun hsending hbody =>
    obtain ⟨hr, rfl⟩ := h.goesOn { c with body := update c.body t (.loop none) } hrun rfl rfl
      (fun before hok => by
        rw [hbody] at hok
        refine ⟨hok.1, b, rfl, ?_⟩
        rw [roomCalls_concat, ← hok.1, ← hok.2]
        rfl)
    exact ⟨some t, hr, hq.idle, hq.chat, hq.queued⟩
  | @broadcast t b after e tail send hrun hsending hbody hnext he =>
    obtain ⟨hr, rfl⟩ := h.goesOn { c.setSend t e.2.ownerSession send with
        sendCalls := c.sendCalls ++ [(b, e.2)], body := update c.body t (.loop (some e.1)) } hrun rfl rfl
      (fun before hok => by
        rw [hbody] at hok
        obtain ⟨hplayers, b', hb', hcalls⟩ := hok
        cases hb'
        refine ⟨hplayers, b, rfl, ?_⟩
        rw [hnext] at hcalls
        show c.sendCalls ++ [(b, e.2)] ++ (c.players.beyond (some e.1)).map _ = _
        rw [OrdMap.beyond_tail hnext, ← hcalls, List.append_assoc]
        rfl)
    exact ⟨some t, hr, hq.broadcast hsending he⟩
  | @last t b after hrun hsending hbody hnext =>
    obtain ⟨hr, rfl⟩ := h.goesOn { c with body := update c.body t .returned } hrun rfl rfl (fun before hok => by
      rw [hbody] at hok
      obtain ⟨hplayers, b', hb', hcalls⟩ := hok
      cases hb'
      rw [hnext, List.map_nil, List.append_nil] at hcalls
      exact ⟨by rw [roomAfter_concat]; exact hplayers, hcalls⟩)
    exact ⟨some t, hr, hq.idle, hq.chat, hq.queued⟩
  | @finish t jobs hsending hbody he =>
    obtain ⟨hs, hin⟩ := jobStep_finish (h.flat t) he
    obtain rfl := (h.inJob t).1 hin
    exact ⟨none, h.finish hs hbody, hq.finish hsending jobs _⟩

/-! ## Runs -/

/-- Fewer than 2³¹ jobs are pending on the room, and no `WSASend` fails. -/
def ChatOk (s : ChatState Tid Sid) (act : ChatAct Tid Sid) (s' : ChatState Tid Sid) : Prop :=
  JobsBounded s'.jobs ∧ NoSendFails s act s'

instance (s : ChatState Tid Sid) (act : ChatAct Tid Sid) (s' : ChatState Tid Sid) : Decidable (ChatOk s act s') :=
  have : Decidable (JobsBounded s'.jobs) := inferInstanceAs (Decidable (∀ _, _))
  inferInstanceAs (Decidable (_ ∧ _))

def ChatReach (s : ChatState Tid Sid) : Prop := Reach chatStep ChatOk chatState₀ s

variable {s : ChatState Tid Sid}

theorem ChatReach.jobs (h : ChatReach s) : JobReach s.jobs := by
  refine Reach.map jobStep (fun s : ChatState Tid Sid => s.jobs) (fun s act s' he hok => ?_) h
  rcases (chatStep_core he hok.2).jobs with hsame | ⟨a, ha, hpush⟩
  · exact .inl hsame
  · exact .inr ⟨a, ha, hok.1, hpush⟩

theorem ChatReach.sends (h : ChatReach s) (a : Sid) : Reach sendStep NeverFails sendState₀ (s.sessions a).send :=
  Reach.map sendStep (fun s : ChatState Tid Sid => (s.sessions a).send)
    (fun _ _ _ he hok => (chatStep_core he hok.2).sends a) h

theorem ChatReach.inv (h : ChatReach s) : ∃ r, RoomInv s.core r ∧ QueuedInv s.core r := by
  refine Reach.inv (P := fun s => ∃ r, RoomInv s.core r ∧ QueuedInv s.core r) h ⟨none, roomInv₀, queuedInv₀⟩
    (fun s act s' hr hP he hok => ?_)
  obtain ⟨r, hroom, hqueued⟩ := hP
  exact (chatStep_core he hok.2).inv (ChatReach.jobs hr).inv.1 hroom hqueued

/-- **A short run** that starts with few pending jobs pends few. -/
theorem ChatReach.of_run : ∀ (as : List (ChatAct Tid Sid)) {s s' : ChatState Tid Sid}, ChatReach s →
    pending s.jobs () + as.length < 2 ^ 31 → run chatStep NoSendFails s as = some s' → ChatReach s'
  | [], s, s', hr, _, h => by
    cases h
    exact hr
  | a :: as, s, s', hr, hlt, h => by
    simp only [run, Option.bind_eq_some_iff] at h
    obtain ⟨s₁, he, h⟩ := h
    split at h
    · rename_i hok
      rw [List.length_cons] at hlt
      have hle : pending s₁.jobs () ≤ pending s.jobs () + 1 := by
        rcases (chatStep_core he hok).jobs with hsame | ⟨b, hb, -⟩
        · have : s₁.jobs = s.jobs := hsame
          rw [this]
          omega
        · exact jobStep_pending hb ()
      have hb : JobsBounded s₁.jobs := fun _ => show pending s₁.jobs () < 2 ^ 31 by omega
      exact ChatReach.of_run as (Reach.next hr he ⟨hb, hok⟩) (by omega) h
    · cases h

end Geon
