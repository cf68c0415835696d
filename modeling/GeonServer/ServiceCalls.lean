import GeonServer.ServiceRun
/-!
# ServiceCalls — what a step of the service is for its contents

A step either leaves the contents alone, and the threads are where they were in the virtual functions or have just been
called into one, or it is one step of one thread inside a virtual function (`serviceStep_calls`).
-/
namespace Geon

open Net Lts Function

inductive Callback
  | onConnected
  | onRecvPacket
  | onDisconnected
  deriving DecidableEq, Repr

variable {Tid Buf : Type} {K : Contents Buf}

/-- The virtual function the task is in: the session, and what is left of it. -/
def Task.callback {Prog : Type} : Task Prog Buf → Option (Callback × Nat × Prog)
  | .processConnect a _ (.onConnected prog) => some (.onConnected, a, prog)
  | .processRecv a (.packet _ prog) => some (.onRecvPacket, a, prog)
  | .processDisconnect a (.onDisconnected prog) => some (.onDisconnected, a, prog)
  | _ => none

/-- The whole of a virtual function. -/
def Contents.Begins (K : Contents Buf) : Callback → K.Prog → Prop
  | .onConnected, prog => prog = K.onConnected
  | .onRecvPacket, prog => ∃ buffer len, prog = K.onRecvPacket buffer len
  | .onDisconnected, prog => prog = K.onDisconnected

/-- What is left after a step, if the function has not returned. -/
def Outcome.prog? {State Prog : Type} : Outcome State Prog Buf → Option Prog
  | .goOn _ prog | .send _ _ _ prog => some prog
  | .ret _ => none

def Outcome.contents {State Prog : Type} : Outcome State Prog Buf → State
  | .goOn contents _ | .send contents _ _ _ | .ret contents => contents

namespace ServiceState

variable {s s' : ServiceState Tid K} {t : Tid} {a : Nat} {w : ServiceWorker K.Prog Buf} {x : Session Tid Buf}
  {task task' : Task K.Prog Buf} {type : ServiceType} {junk : Nat → BYTE} {answer : Answer} {act : ServiceAct Tid Buf}

/-- A thread stays in its virtual function, or is called into one. -/
def Enters (before after : Task K.Prog Buf) : Prop :=
  after.callback = before.callback ∨ before.callback = none ∧ ∀ c b prog, after.callback = some (c, b, prog) →
    K.Begins c prog

/-- The step is none of the contents. -/
structure Silent (s s' : ServiceState Tid K) : Prop where
  contents : s'.contents = s.contents
  parted : ∀ b, (s'.session b).history.parted = (s.session b).history.parted
  threads : ∀ u, Enters (s.workers u).task (s'.workers u).task

/-- Thread `t` has taken the step `out` of the virtual function `c` of session `a`. -/
structure Ran (s s' : ServiceState Tid K) (t : Tid) (c : Callback) (a : Nat) (out : Outcome K.State K.Prog Buf) :
    Prop where
  contents : s'.contents = out.contents
  parted : ∀ b, (s'.session b).history.parted =
    (s.session b).history.parted + if out.prog? = none ∧ c = .onDisconnected ∧ b = a then 1 else 0
  thread : (s'.workers t).task.callback = out.prog?.map (fun prog => (c, a, prog))
  others : ∀ u, u ≠ t → (s'.workers u).task = (s.workers u).task

theorem Enters.refl (task : Task K.Prog Buf) : Enters task task := .inl rfl

theorem Enters.outside (hfrom : task.callback = none) (hto : task'.callback = none) : Enters task task' :=
  .inl (hto.trans hfrom.symm)

theorem parted_update (hx : x.history.parted = (s.session a).history.parted) (b : Nat) :
    ((update s.session a x) b).history.parted = (s.session b).history.parted :=
  apply_update_of_eq (fun x : Session Tid Buf => x.history.parted) s.session hx b

theorem Silent.dispatch (h : Silent s s') (owner : Bool) : Silent s (s'.dispatch owner) := by
  unfold ServiceState.dispatch
  split
  · exact h
  · exact ⟨h.contents, h.parted, h.threads⟩

/-- What a step is for the contents. -/
def Calls (s s' : ServiceState Tid K) : Prop :=
  Silent s s' ∨ ∃ t c a prog, (s.workers t).task.callback = some (c, a, prog) ∧
    ∃ out, K.step s.contents a prog = some out ∧ Ran s s' t c a out

/-! ## Outside the virtual functions -/

theorem afterRecv_callback (accepted : Bool) : (afterRecv accepted : Task K.Prog Buf).callback = none := by
  cases accepted <;> rfl

theorem TaskStep.enters {x' : Session Tid Buf} (h : TaskStep type junk answer a x task x' task') :
    Enters task task' := by
  cases h with
  | recvSkip accepted | recvPost accepted | recvDrop accepted => exact .outside rfl (afterRecv_callback accepted)
  | recvPacket processLen size _ =>
    refine .inr ⟨rfl, fun c b prog hc => ?_⟩
    cases hc
    exact ⟨_, _, rfl⟩
  | partClear =>
    refine .inr ⟨rfl, fun c b prog hc => ?_⟩
    cases hc
    rfl
  | _ => exact .outside rfl rfl

theorem TaskStep.parted {x' : Session Tid Buf} (h : TaskStep type junk answer a x task x' task') :
    x'.history.parted = x.history.parted := by
  cases h <;> rfl

theorem LockStep.enters {s₁ : ServiceState Tid K} (h : LockStep s t a act task s₁ x task') : Enters task task' := by
  cases h with
  | insert answer accepted =>
    refine .inr ⟨rfl, fun c b prog hc => ?_⟩
    cases hc
    rfl
  | _ => exact .outside rfl rfl

theorem LockStep.parted {s₁ : ServiceState Tid K} (h : LockStep s t a act task s₁ x task') :
    x.history.parted = (s.session a).history.parted := by
  cases h <;> rfl

theorem CloseStep.parted {pc : ClosePc} {x' : Session Tid Buf} {pc' : Option ClosePc}
    (h : CloseStep answer x pc x' pc') : x'.history.parted = x.history.parted := by
  cases h <;> rfl

theorem Dequeued.enters {error : Option Nat} {completion : Completion} {x' : Session Tid Buf} {owner : Bool}
    (h : Dequeued error a x completion x' task' owner) : Enters .idle task' ∧ x'.history.parted = x.history.parted := by
  cases h <;> exact ⟨.outside rfl rfl, rfl⟩

theorem HangsUp.enters (h : HangsUp s t a act task task') : Enters task task' := by
  cases h <;> exact .outside rfl rfl

theorem Creates.enters {f : Nat → Task K.Prog Buf} (h : Creates t act task f) (b : Nat) : Enters task (f b) := by
  cases h <;> exact .outside rfl rfl

/-! ## Inside -/

/-- A virtual function is one of the three, until it returns. -/
theorem Virtual.callback {inside : K.Prog → Task K.Prog Buf} {after : Task K.Prog Buf} {note : History → History}
    (h : Virtual a inside after note) : ∃ c : Callback, (∀ prog, (inside prog).callback = some (c, a, prog)) ∧
      after.callback = none ∧
      ∀ history : History, (note history).parted = history.parted + if c = .onDisconnected then 1 else 0 := by
  cases h with
  | onConnected accepted => exact ⟨.onConnected, fun _ => rfl, rfl, fun _ => rfl⟩
  | onRecvPacket processLen => exact ⟨.onRecvPacket, fun _ => rfl, rfl, fun _ => rfl⟩
  | onDisconnected => exact ⟨.onDisconnected, fun _ => rfl, rfl, fun _ => rfl⟩

variable [DecidableEq Tid]

theorem Silent.of_worker (hw : s'.workers = update s.workers t w) (hc : s'.contents = s.contents)
    (hp : ∀ b, (s'.session b).history.parted = (s.session b).history.parted)
    (he : Enters (s.workers t).task w.task) : Silent s s' := by
  refine ⟨hc, hp, ?_⟩
  rw [hw, forall_update_iff s.workers (p := fun u w => Enters (s.workers u).task w.task)]
  exact ⟨he, fun u _ => .refl _⟩

theorem Silent.goto (hw : s.workers t = ⟨task, none, none⟩) (he : Enters task task') : Silent s (s.goto t task') :=
  .of_worker rfl rfl (fun _ => rfl) (by rw [hw]; exact he)

theorem Silent.set (hw : s.workers t = ⟨task, none, none⟩) (he : Enters task task')
    (hx : x.history.parted = (s.session a).history.parted) : Silent s ((s.setSession a x).goto t task') :=
  .of_worker rfl rfl (parted_update hx) (by rw [hw]; exact he)

theorem Silent.setSend {send : SendState Tid Buf} (he : Enters (s.workers t).task task) :
    Silent s (s.setSend t a task send) :=
  .of_worker rfl rfl (parted_update rfl) he

section ran

variable {inside : K.Prog → Task K.Prog Buf} {after : Task K.Prog Buf} {note : History → History} {prog : K.Prog}
  {contents : K.State}

theorem goOn_calls {prog' : K.Prog} (hw : s.workers t = ⟨inside prog, none, none⟩) (h : Virtual a inside after note)
    (hstep : K.step s.contents a prog = some (.goOn contents prog')) :
    Calls s ({ s with contents := contents }.goto t (inside prog')) := by
  obtain ⟨c, hinside, -, -⟩ := h.callback
  refine .inr ⟨t, c, a, prog, by rw [hw]; exact hinside prog, _, hstep, rfl, fun b => ?_, ?_, fun u hu => ?_⟩
  · simp [Outcome.prog?, ServiceState.goto, setWorker]
  · simp [ServiceState.goto, setWorker, hinside, Outcome.prog?]
  · simp [ServiceState.goto, setWorker, update_of_ne hu]

theorem ret_calls (hw : s.workers t = ⟨inside prog, none, none⟩) (h : Virtual a inside after note)
    (hstep : K.step s.contents a prog = some (.ret contents)) :
    Calls s (({ s with contents := contents }.setSession a
      { s.session a with history := note (s.session a).history }).goto t after) := by
  obtain ⟨c, hinside, hafter, hnote⟩ := h.callback
  refine .inr ⟨t, c, a, prog, by rw [hw]; exact hinside prog, _, hstep, rfl, fun b => ?_, ?_, fun u hu => ?_⟩
  · by_cases hb : b = a
    · subst hb
      simp [ServiceState.goto, setWorker, setSession, hnote, Outcome.prog?]
    · simp [ServiceState.goto, setWorker, setSession, hb]
  · simp [ServiceState.goto, setWorker, hafter, Outcome.prog?]
  · simp [ServiceState.goto, setWorker, setSession, update_of_ne hu]

theorem callSend_calls {b : Nat} {sendBuffer : Buf} {send : SendState Tid Buf}
    (hw : s.workers t = ⟨task, none, none⟩) (h : Sender s t b sendBuffer act task contents task') :
    Calls s ({ s with contents := contents }.setSend t b task' send) := by
  cases h with
  | @callback answer a inside after note prog prog' contents hv hstep _ =>
    obtain ⟨c, hinside, -, -⟩ := hv.callback
    refine .inr ⟨t, c, a, prog, by rw [hw]; exact hinside prog, _, hstep, rfl, fun d => ?_, ?_, fun u hu => ?_⟩
    · simp only [Outcome.prog?, reduceCtorEq, false_and, if_false, Nat.add_zero]
      exact parted_update (a := b) (x := { s.session b with send := send }) rfl d
    · simp [ServiceState.setSend, setWorker, hinside, Outcome.prog?]
    · simp [ServiceState.setSend, setWorker, setSession, update_of_ne hu]
  | broadcast answer sessions => exact .inl (.setSend (by rw [hw]; exact .outside rfl rfl))
  | contents _ => exact .inl (.setSend (by rw [hw]; exact .outside rfl rfl))

end ran

variable [Fintype Tid]

omit [DecidableEq Tid] in
theorem parted_of_life (hL : ∀ a, Life (s.marking a)) : (s.session s.numSessions).history.parted = 0 := by
  have hcreated : s.marking s.numSessions .created = 0 := by
    rw [marking_flag _ _ rfl]
    simp [Session.part]
  have := (hL s.numSessions).blank hcreated .parted
  rwa [marking_flag _ _ rfl] at this

/-- **A step leaves the contents alone, or is one step of a virtual function.** -/
theorem serviceStep_calls (hL : ∀ a, Life (s.marking a)) (he : serviceStep type junk s act = some s') : Calls s s' := by
  cases serviceStep_effect he with
  | task hw hstep => exact .inl (.set hw hstep.enters hstep.parted)
  | lock hw hstep =>
    obtain ⟨hsession, hworkers, -, hcontents⟩ := hstep.same
    refine .inl (.of_worker hworkers hcontents (fun b => ?_) (by rw [hw]; exact hstep.enters))
    rw [hsession]
    exact parted_update hstep.parted b
  | goOn hw hv hstep => exact goOn_calls hw hv hstep
  | ret hw hv hstep => exact ret_calls hw hv hstep
  | callSend hw hsender _ => exact callSend_calls hw hsender
  | sending _ _ _ => exact .inl (.setSend (.refl _))
  | hangUp hw hh _ => exact .inl (.of_worker rfl rfl (parted_update rfl) (by rw [hw]; exact hh.enters))
  | hungUp hw hh _ => exact .inl (.goto hw hh.enters)
  | close _ hstep => exact .inl (.of_worker rfl rfl (parted_update hstep.parted) (.refl _))
  | create hw hc =>
    -- a new session has not been disconnected, and neither has the one that is not there yet
    exact .inl (.of_worker rfl rfl (parted_update (parted_of_life hL).symm) (by rw [hw]; exact hc.enters _))
  | startAccept hw _ => exact .inl (.goto hw (.outside rfl rfl))
  | take hw _ hd => exact .inl (.dispatch (.set hw hd.enters.1 hd.enters.2) _)
  | takeSend hw _ _ => exact .inl (.dispatch (.setSend (by rw [hw]; exact .refl _)) _)
  | releaseFails _ _ _ => exact .inl ⟨rfl, fun _ => rfl, fun _ => .refl _⟩
  | destroy _ _ _ => exact .inl ⟨rfl, parted_update rfl, fun _ => .refl _⟩

end ServiceState

/-! ## The places of the virtual functions -/

def Callback.place : Callback → Place
  | .onConnected => .greeting
  | .onRecvPacket => .receiving
  | .onDisconnected => .parting

theorem place_of_callback {Prog : Type} {task : Task Prog Buf} {c : Callback} {a : Nat} {prog : Prog}
    (h : task.callback = some (c, a, prog)) : task.place = some (a, c.place) := by
  unfold Task.callback at h
  split at h <;> cases h <;> rfl

/-- The session whose `OnDisconnected` the task is in. -/
def Task.parts {Prog : Type} : Task Prog Buf → Option Nat
  | .processDisconnect a (.onDisconnected _) => some a
  | _ => none

theorem parts_iff {Prog : Type} {task : Task Prog Buf} {a : Nat} : task.parts = some a ↔
    task.place = some (a, .parting) := by
  unfold Task.place
  split <;> simp [Task.parts]

/-- `OnDisconnected` of the session has started. -/
def ServiceState.parting (s : ServiceState Tid K) (a : Nat) : Prop :=
  0 < (s.session a).history.parted ∨ ∃ t, (s.workers t).task.parts = some a

variable [Fintype Tid] {s : ServiceState Tid K} {a : Nat}

instance (s : ServiceState Tid K) (a : Nat) : Decidable (s.parting a) := inferInstanceAs (Decidable (_ ∨ _))

theorem ServiceState.parting_iff : s.parting a ↔ 0 < s.marking a .parting + s.marking a .parted := by
  have hparted : s.marking a .parted = (s.session a).history.parted := marking_flag s a rfl
  have hparting : 0 < s.marking a .parting ↔ ∃ t, (s.workers t).task.parts = some a := by
    rw [marking_pos_iff rfl]
    exact exists_congr (fun t => (mem_marks_task rfl).trans parts_iff.symm)
  rw [parting, ← hparting, hparted]
  omega

theorem marking_of_callback {t : Tid} {c : Callback} {prog : K.Prog}
    (h : (s.workers t).task.callback = some (c, a, prog)) : 0 < s.marking a c.place := by
  refine ServiceState.marking_pos (t := t) ?_
  rw [mem_marks_task (by cases c <;> rfl)]
  exact place_of_callback h

end Geon
