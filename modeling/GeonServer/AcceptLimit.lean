import GeonServer.ServiceRun
import Mathlib.Algebra.BigOperators.Intervals
/-!
# AcceptLimit — what `GetMaxSessionCount` limits

`Listener::StartAccept` calls `RegisterAccept` as often as `GetMaxSessionCount()` says, and every completion of an
`AcceptEx` ends in another `RegisterAccept`.  So the accepts that are under way are always as many as were started
(`serviceStep_accepting`), and the sessions they leave in `_sessions` are as many as the peers like (`two_sessions`).
-/
namespace Geon

open Net Lts Function Finset

variable {Tid Buf : Type} {K : Contents Buf}

/-- A server: the service, and the `i` of the loop of `StartAccept`. -/
structure ServerState (Tid : Type) {Buf : Type} (K : Contents Buf) where
  service : ServiceState Tid K
  i : Nat

def serverStep [DecidableEq Tid] [Fintype Tid] (maxSessionCount : Int) (junk : Nat → BYTE) (s : ServerState Tid K) :
    ServiceAct Tid Buf → Option (ServerState Tid K)
  | .startAccept t =>
    if s.i < maxSessionCount then
      (serviceStep .Server junk s.service (.startAccept t)).map (fun service => ⟨service, s.i + 1⟩)
    else none
  | act => (serviceStep .Server junk s.service act).map (fun service => ⟨service, s.i⟩)

def serverState₀ (K : Contents Buf) (contents : K.State) : ServerState Tid K := ⟨serviceState₀ K contents, 0⟩

/-- The task is part of an accept: from the call of `RegisterAccept` to the one that succeeds. -/
def Task.accepting {Prog : Type} : Task Prog Buf → Nat
  | .registerAccept | .acceptEx _ | .processAccept _ => 1
  | .processConnect _ accepted _ | .registerRecv _ accepted _ => accepted.toNat
  | _ => 0

/-- The accept that the action starts. -/
def ServiceAct.starts : ServiceAct Tid Buf → Nat
  | .startAccept _ => 1
  | _ => 0

namespace ServiceState

/-- The accepts under way: the threads that are in one, and the `AcceptEx` in flight. -/
def accepting [Fintype Tid] (s : ServiceState Tid K) : Nat :=
  tally (fun w => w.task.accepting) s.workers + ∑ a ∈ range s.numSessions, (s.session a).accepts.length

variable {s s' : ServiceState Tid K} {t : Tid} {a : Nat} {w : ServiceWorker K.Prog Buf} {x : Session Tid Buf}
  {task task' : Task K.Prog Buf} {type : ServiceType} {junk : Nat → BYTE} {answer : Answer} {act : ServiceAct Tid Buf}

/-! ## What a step does to the accepts -/

theorem afterRecv_accepting (accepted : Bool) : (afterRecv accepted : Task K.Prog Buf).accepting = accepted.toNat := by
  cases accepted <;> rfl

/-- **An `AcceptEx` that is posted takes over from its thread.** -/
theorem TaskStep.accepting {x' : Session Tid Buf} (h : TaskStep type junk answer a x task x' task') :
    task'.accepting + x'.accepts.length = task.accepting + x.accepts.length := by
  cases h with
  | acceptPost _ => exact (Nat.zero_add _).trans (Nat.add_comm _ 1)
  | recvSkip accepted | recvPost accepted | recvDrop accepted => rw [afterRecv_accepting]; rfl
  | _ => rfl

/-- **A thread takes over from the completion of an `AcceptEx`.** -/
theorem Dequeued.accepting {error : Option Nat} {completion : Completion} {x' : Session Tid Buf} {owner : Bool}
    (h : Dequeued error a x completion x' task' owner) :
    task'.accepting + x'.accepts.length = x.accepts.length := by
  cases h with
  | accept accepts haccepts => rw [haccepts]; exact Nat.add_comm 1 _
  | _ => exact Nat.zero_add _

theorem LockStep.accepting {s₁ : ServiceState Tid K} (h : LockStep s t a act task s₁ x task') :
    task'.accepting = task.accepting ∧ x.accepts = (s.session a).accepts ∧ act.starts = 0 := by
  cases h <;> exact ⟨rfl, rfl, rfl⟩

theorem Virtual.accepting {inside : K.Prog → Task K.Prog Buf} {after : Task K.Prog Buf} {note : History → History}
    (h : Virtual a inside after note) (prog prog' : K.Prog) :
    (inside prog').accepting = (inside prog).accepting ∧ after.accepting = (inside prog).accepting := by
  cases h <;> exact ⟨rfl, rfl⟩

theorem HangsUp.accepting (h : HangsUp s t a act task task') : task'.accepting = task.accepting ∧ act.starts = 0 := by
  cases h <;> exact ⟨rfl, rfl⟩

theorem CloseStep.accepts {pc : ClosePc} {x' : Session Tid Buf} {pc' : Option ClosePc}
    (h : CloseStep answer x pc x' pc') : x'.accepts = x.accepts := by
  cases h <;> rfl

theorem Creates.accepting {f : Nat → Task K.Prog Buf} (h : Creates t act task f) (b : Nat) :
    (f b).accepting = task.accepting ∧ act.starts = 0 := by
  cases h <;> exact ⟨rfl, rfl⟩

theorem Sender.accepting {b : Nat} {sendBuffer : Buf} {contents : K.State}
    (h : Sender s t b sendBuffer act task contents task') : task'.accepting = task.accepting ∧ act.starts = 0 := by
  cases h with
  | callback _ hv _ _ => exact ⟨(hv.accepting _ _).1, rfl⟩
  | broadcast _ _ => exact ⟨rfl, rfl⟩
  | contents _ => exact ⟨rfl, rfl⟩

/-! ## The count -/

variable [Fintype Tid] [DecidableEq Tid]

theorem accepting_of (hw : s'.workers = update s.workers t w) (hs : s'.session = update s.session a x)
    (hn : s'.numSessions = s.numSessions) (ha : a < s.numSessions) :
    s'.accepting + (s.workers t).task.accepting + (s.session a).accepts.length =
      s.accepting + w.task.accepting + x.accepts.length := by
  have hworkers := tally_update (fun w => w.task.accepting) s.workers t w
  have hsessions := sum_update (fun x : Session Tid Buf => x.accepts.length) s.session (mem_range.2 ha) x
  simp only [ServiceState.accepting, hw, hs, hn]
  omega

/-- A thread and one session. -/
theorem accepting_task (t : Tid) (x : Session Tid Buf) (task' : Task K.Prog Buf) (ha : a < s.numSessions) :
    ((s.setSession a x).goto t task').accepting + (s.workers t).task.accepting + (s.session a).accepts.length =
      s.accepting + task'.accepting + x.accepts.length :=
  accepting_of (w := ⟨task', none, none⟩) rfl rfl rfl ha

omit [DecidableEq Tid] in
theorem accepting_congr (ht : ∀ u, (s'.workers u).task.accepting = (s.workers u).task.accepting)
    (ha : ∀ b, (s'.session b).accepts = (s.session b).accepts) (hn : s'.numSessions = s.numSessions) :
    s'.accepting = s.accepting := by
  simp only [ServiceState.accepting, tally, ht, ha, hn]

/-- The thread goes on in its accept, or in none. -/
theorem accepting_stays (hw : s'.workers = update s.workers t w) (hs : s'.session = update s.session a x)
    (hn : s'.numSessions = s.numSessions) (hx : x.accepts = (s.session a).accepts)
    (ht : w.task.accepting = (s.workers t).task.accepting) : s'.accepting = s.accepting := by
  refine accepting_congr (fun u => ?_) (fun b => ?_) hn
  · rw [hw]
    exact apply_update_of_eq (fun w => w.task.accepting) s.workers ht u
  · rw [hs]
    exact apply_update_of_eq (fun x : Session Tid Buf => x.accepts) s.session hx b

omit [DecidableEq Tid] in
theorem accepting_dispatch (owner : Bool) : (s.dispatch owner).accepting = s.accepting := by
  unfold dispatch
  split <;> rfl

theorem accepting_goto (hw : s.workers t = ⟨task, none, none⟩) :
    (s.goto t task').accepting + task.accepting = s.accepting + task'.accepting := by
  have hworkers := tally_update (fun w => w.task.accepting) s.workers t ⟨task', none, none⟩
  simp only [hw] at hworkers
  simp only [ServiceState.accepting, ServiceState.goto, setWorker]
  omega

theorem accepting_create (f : Nat → Task K.Prog Buf) (hw : s.workers t = ⟨task, none, none⟩) :
    (s.createSession t f).accepting + task.accepting = s.accepting + (f s.numSessions).accepting := by
  have hworkers := tally_update (fun w => w.task.accepting) s.workers t ⟨f s.numSessions, none, none⟩
  have hsessions : ∑ b ∈ range (s.numSessions + 1), (update s.session s.numSessions .new b).accepts.length =
      ∑ b ∈ range s.numSessions, (s.session b).accepts.length := by
    rw [sum_range_succ, update_self, show (Session.new : Session Tid Buf).accepts.length = 0 from rfl, Nat.add_zero]
    refine sum_congr rfl (fun b hb => congrArg (fun x : Session Tid Buf => x.accepts.length) ?_)
    exact update_of_ne (Nat.ne_of_lt (mem_range.1 hb)) ..
  simp only [hw] at hworkers
  simp only [ServiceState.accepting, ServiceState.createSession, ServiceState.goto, setWorker, setSession, hsessions]
  omega

end ServiceState

variable [Fintype Tid] [DecidableEq Tid] {s s' : ServiceState Tid K}

open ServiceState in
/-- **Every accept is replaced by another**: only `StartAccept` adds to those under way. -/
theorem serviceStep_accepting (h : ServiceInv s) {type : ServiceType} {junk : Nat → BYTE} {act : ServiceAct Tid Buf}
    (he : serviceStep type junk s act = some s') : s'.accepting = s.accepting + act.starts := by
  have hL := h.life
  cases serviceStep_effect he with
  | @task t answer a x task task' hw hstep =>
    have hlt := lt_of_session hL hw hstep.session
    have hcount := accepting_task t x task' hlt
    have hsame := hstep.accepting
    simp only [hw] at hcount
    show _ = s.accepting
    omega
  | lock hw hstep =>
    obtain ⟨hsession, hworkers, hnum, -⟩ := hstep.same
    obtain ⟨htask, haccepts, hstarts⟩ := hstep.accepting
    rw [hstarts]
    exact accepting_stays hworkers hsession hnum haccepts (by rw [hw]; exact htask)
  | goOn hw hv _ =>
    exact accepting_stays rfl (update_eq_self 0 s.session).symm rfl rfl (by rw [hw]; exact (hv.accepting _ _).1)
  | @ret t answer a inside after note prog contents hw hv _ =>
    refine accepting_stays (s := s) (a := a) rfl rfl rfl ?_ (by rw [hw]; exact (hv.accepting _ prog).2)
    rfl
  | callSend hw hsender _ =>
    obtain ⟨htask, hstarts⟩ := hsender.accepting
    rw [hstarts]
    refine accepting_stays (s := s) rfl rfl rfl ?_ (by rw [hw]; exact htask)
    rfl
  | sending _ _ _ => exact accepting_stays rfl rfl rfl rfl rfl
  | hangUp hw hh _ =>
    obtain ⟨htask, hstarts⟩ := hh.accepting
    rw [hstarts]
    exact accepting_stays rfl rfl rfl rfl (by rw [hw]; exact htask)
  | hungUp hw hh _ =>
    obtain ⟨htask, hstarts⟩ := hh.accepting
    rw [hstarts]
    exact accepting_stays rfl (update_eq_self 0 s.session).symm rfl rfl (by rw [hw]; exact htask)
  | close _ hstep => exact accepting_stays rfl rfl rfl hstep.accepts rfl
  | @create t act task f hw hc =>
    have hcount := accepting_create f hw
    obtain ⟨htask, hstarts⟩ := hc.accepting s.numSessions
    omega
  | startAccept hw _ => exact accepting_goto hw
  | @take t completion error a x task' owner hw _ hd =>
    have hcount := accepting_task t x task' (hd.lt hL)
    have hsame := hd.accepting
    have hidle : (Task.idle : Task K.Prog Buf).accepting = 0 := rfl
    simp only [hw] at hcount
    rw [accepting_dispatch]
    show _ = s.accepting
    omega
  | takeSend hw _ _ =>
    rw [accepting_dispatch]
    exact accepting_stays rfl rfl rfl rfl (by rw [hw])
  | releaseFails _ _ _ => rfl
  | destroy _ _ _ =>
    refine accepting_congr (fun _ => rfl) (fun b => ?_) rfl
    exact apply_update_of_eq (fun x : Session Tid Buf => x.accepts) s.session (by rfl) b

/-! ## Every run of a server -/

/-- What a step of the server is for its service. -/
theorem serverStep_cases {maxSessionCount : Int} {junk : Nat → BYTE} {s s' : ServerState Tid K}
    {act : ServiceAct Tid Buf} (he : serverStep maxSessionCount junk s act = some s') :
    serviceStep .Server junk s.service act = some s'.service ∧ s'.i = s.i + act.starts ∧
      (s.i ≤ maxSessionCount.toNat → s'.i ≤ maxSessionCount.toNat) := by
  unfold serverStep at he
  split at he
  · split at he
    · rename_i hlt
      obtain ⟨service, hservice, rfl⟩ := Option.map_eq_some_iff.1 he
      exact ⟨hservice, rfl, fun _ => by show s.i + 1 ≤ _; omega⟩
    · cases he
  · rename_i hact
    obtain ⟨service, hservice, rfl⟩ := Option.map_eq_some_iff.1 he
    have hzero : act.starts = 0 := by
      cases act with
      | startAccept t => exact (hact t rfl).elim
      | _ => rfl
    exact ⟨hservice, by rw [hzero]; rfl, id⟩

/-- **`GetMaxSessionCount` limits the accepts**: in every run those under way are as many as `StartAccept` has started,
and never more than it allows. -/
theorem accepts_limited {maxSessionCount : Int} {junk : Nat → BYTE} {contents : K.State} {s : ServerState Tid K}
    (h : Reach (serverStep maxSessionCount junk) Any (serverState₀ K contents) s) :
    s.service.accepting = s.i ∧ s.service.accepting ≤ maxSessionCount.toNat := by
  have hinv : ServiceInv s.service ∧ s.service.accepting = s.i ∧ s.i ≤ maxSessionCount.toNat := by
    refine h.inv (P := fun s => ServiceInv s.service ∧ s.service.accepting = s.i ∧ s.i ≤ maxSessionCount.toNat)
      ⟨serviceInv_start K contents, ?_, Nat.zero_le _⟩ ?_
    · have hzero : tally (fun w => w.task.accepting) (serverState₀ K contents : ServerState Tid K).service.workers = 0 :=
        tally_const_zero _ _ rfl
      rw [ServiceState.accepting, hzero]
      rfl
    · rintro s act s' - ⟨hi, hcount, hle⟩ he -
      obtain ⟨hservice, hstarted, hle'⟩ := serverStep_cases he
      exact ⟨serviceStep_inv hi hservice, by rw [serviceStep_accepting hi hservice, hstarted, hcount], hle' hle⟩
  exact ⟨hinv.2.1, hinv.2.1 ▸ hinv.2.2⟩

/-- A client connects: the completion of its `AcceptEx`, up to the `AcceptEx` that replaces it. -/
def clientAccepted (a : Nat) : List (ServiceAct Two Nat) :=
  .dequeue .one (.accept a) none :: .replicate 9 (.next .one .success)

/-- A server for one session, to which two clients connect. -/
def twoClients : List (ServiceAct Two Nat) :=
  .startAccept .one :: .replicate 2 (.next .one .success) ++ clientAccepted 0 ++ clientAccepted 1

theorem accepts_limited_two :
    ∃ s, run (serverStep 1 (fun _ => 0)) Any (serverState₀ (Session.contents Nat) ()) twoClients = some s ∧ s.i = 1 ∧
      s.service.accepting = s.i ∧ s.service.accepting ≤ 1 := by
  obtain ⟨s, hs, hr⟩ := reach_of_run (serverStep 1 (fun _ => 0)) Any
    (serverState₀ (Session.contents Nat) () : ServerState Two _) twoClients (by decide)
  have hi : (run (serverStep 1 (fun _ => 0)) Any (serverState₀ (Session.contents Nat) () : ServerState Two _)
      twoClients).map (fun s => s.i) = some 1 := by decide
  rw [hs, Option.map_some, Option.some.injEq] at hi
  exact ⟨s, hs, hi, accepts_limited hr⟩

/-- **It does not limit the sessions**: a server for one session has two. -/
theorem two_sessions : ∃ s : ServerState Two (Session.contents Nat),
    Reach (serverStep 1 (fun _ => 0)) Any (serverState₀ (Session.contents Nat) ()) s ∧ s.service.sessions = {0, 1} ∧
      (s.service.session 0).send.connected = true ∧ (s.service.session 1).send.connected = true := by
  obtain ⟨s, hs, hr⟩ := reach_of_run (serverStep 1 (fun _ => 0)) Any
    (serverState₀ (Session.contents Nat) () : ServerState Two _) twoClients (by decide)
  have hend : (run (serverStep 1 (fun _ => 0)) Any (serverState₀ (Session.contents Nat) () : ServerState Two _)
      twoClients).map (fun s => (s.service.sessions, (s.service.session 0).send.connected,
        (s.service.session 1).send.connected)) = some ({0, 1}, true, true) := by decide
  rw [hs, Option.map_some, Option.some.injEq, Prod.mk.injEq, Prod.mk.injEq] at hend
  exact ⟨s, hr, hend⟩

end Geon
