import GeonServer.ServiceCalls
import GeonServer.SessionSends
/-!
# ServiceDrain — how much a service has left to do

When nobody new is accepted or connected and every receive that completes is empty, each step of a service leaves it
less to do (`drain_step`), whatever its threads and the system do.  The measure is lexicographic: what is left of the
lives of the sessions, of the packets in the receive buffers, of the virtual functions and the loops of `Broadcast`, and
of the sends.
-/
namespace Geon

open Net Lts Function

variable {Tid Buf : Type} {K : Contents Buf}

/-! ## What is left of a life

The numbers go down along the code: where a step sets a flag, posts an operation or starts another function, it was at
more than these weigh together. -/

@[simp] def ClosePc.weight : ClosePc → Nat
  | .register => 7
  | .post => 6
  | .reset => 1

/-- What `RegisterAccept`, with which `ProcessAccept` ends, may still cost. -/
def acceptWeight (accepted : Bool) : Nat := if accepted = true then 3 else 0

@[simp] def OpenPc.weight {Prog : Type} : OpenPc Prog → Nat
  | .store => 18
  | .lock => 9
  | .insert => 8
  | .onConnected _ => 7

@[simp] def RecvPc.weight : RecvPc → Nat
  | .check => 6
  | .post => 5
  | .error _ => 4
  | .reset => 1

/-- An empty receive ends the session, another one may be followed by one more. -/
@[simp] def ReadPc.weight {Prog : Type} : ReadPc Prog → Nat
  | .clear numOfBytes => if numOfBytes = 0 then 2 else 9
  | .check numOfBytes => if numOfBytes = 0 then 1 else 8
  | .loop _ | .packet _ _ => 7

@[simp] def PartPc.weight {Prog : Type} : PartPc Prog → Nat
  | .clear => 4
  | .onDisconnected _ => 3
  | .release => 2
  | .uncount => 1

@[simp] def ConnectPc.weight : ConnectPc → Nat
  | .check => 21
  | .post => 20
  | .reset => 1

@[simp] def Task.weight {Prog : Type} : Task Prog Buf → Nat
  | .idle => 0
  | .registerConnect _ pc => pc.weight
  | .registerAccept => 3
  | .acceptEx _ => 1
  | .processAccept _ => 25
  | .processConnect _ accepted pc => pc.weight + acceptWeight accepted
  | .registerRecv _ accepted pc => pc.weight + acceptWeight accepted
  | .processRecv _ pc => pc.weight
  | .processDisconnect _ pc => pc.weight
  | .broadcast _ _ => 1

def ServiceWorker.weight {Prog : Type} (w : ServiceWorker Prog Buf) : Nat :=
  w.task.weight + (w.closing.map (fun c => c.2.weight)).getD 0

/-- What the operations in flight, `_connected` and the object itself may still cost. -/
def Session.weight (x : Session Tid Buf) : Nat :=
  8 * x.send.connected.toNat + 19 * x.connectEvent.ops.length + 5 * x.disconnectEvent.ops.length +
    3 * x.recvEvent.ops.length + (!x.destroyed).toNat

/-- What is left of the packets in the buffer that `OnRecv` goes through. -/
def Task.reading {Prog : Type} : Task Prog Buf → Nat
  | .processRecv _ (.loop processLen) => 2 * ((BUFFER_SIZE * BUFFER_COUNT).toNat - processLen)
  | .processRecv _ (.packet processLen _) => 2 * ((BUFFER_SIZE * BUFFER_COUNT).toNat - processLen) + 1
  | _ => 0

/-- What is left of the virtual function the task is in, or of the loop of `Broadcast`. -/
def Task.left {Prog : Type} (size : Prog → Nat) : Task Prog Buf → Nat
  | .processConnect _ _ (.onConnected prog) | .processRecv _ (.packet _ prog)
  | .processDisconnect _ (.onDisconnected prog) => size prog
  | .broadcast _ sessions => sessions.length
  | _ => 0

/-- There is less left of a virtual function after each of its steps. -/
def Contents.Shrinks (K : Contents Buf) (size : K.Prog → Nat) : Prop :=
  ∀ contents a prog out, K.step contents a prog = some out → ∀ prog' ∈ out.prog?, size prog' < size prog

namespace ServiceState

variable {s s' : ServiceState Tid K} {t : Tid} {a : Nat} {w : ServiceWorker K.Prog Buf} {x x' : Session Tid Buf}
  {task task' : Task K.Prog Buf} {size : K.Prog → Nat}

/-! ## The steps that are left -/

/-- The packet at hand says that it is of no bytes: the loop of `OnRecv` does not come to an end. -/
def Spins (s : ServiceState Tid K) (t : Tid) : Prop :=
  ∃ a processLen, s.workers t = ⟨.processRecv a (.loop processLen), none, none⟩ ∧
    packetHead ((s.session a).recvBuffer.data.drop processLen) = some 0

/-- **The steps that are left** when nobody new comes and the peers have hung up: the threads inside go on, completions
other than those of `AcceptEx` are taken, receives complete with nothing, and sessions are destroyed.  `AcceptEx` does
not fail, since `RegisterAccept` tries it again. -/
def Draining (s : ServiceState Tid K) (act : ServiceAct Tid Buf) (_ : ServiceState Tid K) : Prop :=
  match act with
  | .next t answer => ((∃ a, s.workers t = ⟨.acceptEx a, none, none⟩) → answer.wsa.failed = none) ∧ ¬ s.Spins t
  | .dequeue _ (.recv _ _ bytes) _ => bytes = []
  | .dequeue _ (.accept _) _ => False
  | .dequeue _ (.connect _) _ | .dequeue _ (.disconnect _) _ | .dequeue _ (.send _ _ _) _ | .destroy _ => True
  | .startAccept _ | .connect _ | .send _ _ _ | .disconnect _ _ | .broadcast _ _ _ => False

/-! ## What they leave of a task and of a session -/

section steps

variable {type : ServiceType} {junk : Nat → BYTE} {answer : Answer} {act : ServiceAct Tid Buf}

theorem weight_afterRecv (accepted : Bool) : (afterRecv accepted : Task K.Prog Buf).weight = acceptWeight accepted := by
  cases accepted <;> rfl

theorem TaskStep.drains (h : TaskStep type junk answer a x task x' task') (hsized : Sized x.recvBuffer)
    (haccept : task = .acceptEx a → answer.wsa.failed = none)
    (hspins : ∀ processLen, task = .processRecv a (.loop processLen) →
      packetHead (x.recvBuffer.data.drop processLen) ≠ some 0) :
    task'.weight + x'.weight < task.weight + x.weight ∨
      task'.weight + x'.weight ≤ task.weight + x.weight ∧ task'.reading < task.reading := by
  cases h with
  | acceptFail hfail => exact absurd (haccept rfl) hfail
  | recvPacket processLen size hhead =>
    -- the packet is not empty, and it is in the buffer
    have hne : size ≠ 0 := fun h0 => hspins processLen rfl (by rw [hhead, h0])
    obtain ⟨-, -, -, hle⟩ := (packetHead_eq_some _ _).1 hhead
    rw [List.length_drop] at hle
    have hdata := hsized.length_data
    refine .inr ⟨Nat.le_refl _, ?_⟩
    simp only [Task.reading]
    omega
  | recvSkip accepted | recvPost accepted | recvDrop accepted =>
    left
    rw [weight_afterRecv]
    simp only [Task.weight, RecvPc.weight, Session.weight, List.length_append, List.length_singleton]
    omega
  | recvClear numOfBytes =>
    left
    simp only [Task.weight, ReadPc.weight, Session.weight]
    split <;> omega
  | recvRead numOfBytes b hne _ =>
    left
    simp only [Task.weight, ReadPc.weight, Session.weight, if_neg hne]
    omega
  | acceptOpen _ | recvAgain _ _ _ _ => exact .inl (Nat.add_lt_add_right (by simp [acceptWeight]) _)
  | _ =>
    left
    simp only [Task.weight, ConnectPc.weight, OpenPc.weight, RecvPc.weight, PartPc.weight,
      Session.weight, List.length_cons, Bool.toNat_true]
    omega

theorem Dequeued.drains {error : Option Nat} {completion : Completion} {owner : Bool}
    (h : Dequeued error a x completion x' task' owner) (hok : Draining s (.dequeue t completion error) s') :
    task'.weight + x'.weight < x.weight := by
  cases h with
  | connect ops hops =>
    simp only [Task.weight, OpenPc.weight, acceptWeight, Session.weight, hops, List.length_cons, Bool.false_eq_true,
      if_false]
    omega
  | disconnect ops hops =>
    simp only [Task.weight, PartPc.weight, Session.weight, hops, List.length_cons]
    omega
  | accept accepts haccepts => exact absurd hok id
  | recv i bytes posted hposted _ =>
    obtain rfl : bytes = [] := hok
    have hi : i < x.recvEvent.ops.length := (List.getElem?_eq_some_iff.1 hposted).1
    simp only [Task.weight, ReadPc.weight, Session.weight, List.length_nil, if_true, List.length_eraseIdx_of_lt hi]
    omega

theorem CloseStep.drains {pc : ClosePc} {pc' : Option ClosePc} (h : CloseStep answer x pc x' pc') :
    (pc'.map ClosePc.weight).getD 0 + x'.weight < pc.weight + x.weight := by
  cases h with
  | fail _ => exact Nat.add_lt_add_right (by decide) _
  | _ =>
    simp only [ClosePc.weight, Session.weight, List.length_cons, Option.map_some, Option.map_none, Option.getD_some,
      Option.getD_none]
    omega

theorem HangsUp.drains (h : HangsUp s t a act task task') (hok : Draining s act s') : task'.weight < task.weight := by
  cases h with
  | recvFailed answer accepted errCode _ =>
    simp only [Task.weight, RecvPc.weight]
    omega
  | recvEmpty answer numOfBytes _ =>
    simp only [Task.weight, ReadPc.weight]
    split <;> omega
  | recvLoop answer processLen _ => simp
  | contents _ => exact absurd hok id

theorem HangsUp.session (h : HangsUp s t a act task task') (hok : Draining s act s') : task.session? = some a := by
  cases h with
  | contents _ => exact absurd hok id
  | _ => rfl

/-- The lock is for the set, which weighs nothing. -/
theorem LockStep.drains {s₁ : ServiceState Tid K} (h : LockStep s t a act task s₁ x task') (hok : Draining s act s') :
    task'.weight < task.weight ∧ x.weight = (s.session a).weight := by
  cases h with
  | broadcast _ _ _ _ _ => exact absurd hok id
  | _ =>
    refine ⟨?_, rfl⟩
    simp only [Task.weight, OpenPc.weight, PartPc.weight]
    omega

theorem Virtual.drains {inside : K.Prog → Task K.Prog Buf} {after : Task K.Prog Buf} {note : History → History}
    (h : Virtual a inside after note) (prog : K.Prog) :
    after.weight < (inside prog).weight ∨ after.weight ≤ (inside prog).weight ∧ after.reading < (inside prog).reading := by
  cases h with
  | onConnected accepted =>
    left
    simp only [Task.weight, OpenPc.weight, RecvPc.weight]
    omega
  | onRecvPacket processLen => exact .inr ⟨Nat.le_refl _, Nat.lt_succ_self _⟩
  | onDisconnected => exact .inl (by simp)

/-- A virtual function that goes on. -/
theorem Virtual.left (size : K.Prog → Nat) {inside : K.Prog → Task K.Prog Buf} {after : Task K.Prog Buf}
    {note : History → History} (h : Virtual a inside after note) (prog prog' : K.Prog) : (inside prog').weight = (inside prog).weight ∧
      (inside prog').reading = (inside prog).reading ∧ (inside prog).left size = size prog := by
  cases h <;> exact ⟨rfl, rfl, rfl⟩

/-- A call of `Send`, for which there is less left of the task. -/
theorem Sender.drains (hK : K.Shrinks size) {b : Nat} {sendBuffer : Buf} {contents : K.State}
    (h : Sender s t b sendBuffer act task contents task') (hok : Draining s act s') :
    task'.weight = task.weight ∧ task'.reading = task.reading ∧ task'.left size < task.left size := by
  cases h with
  | @callback answer a inside after note prog prog' contents hv hstep _ =>
    obtain ⟨hweight, hreading, hleft⟩ := hv.left size prog prog'
    refine ⟨hweight, hreading, ?_⟩
    rw [hleft, (hv.left size prog' prog).2.2]
    exact hK _ _ _ _ hstep _ rfl
  | broadcast answer sessions => exact ⟨rfl, rfl, Nat.lt_succ_self _⟩
  | contents _ => exact absurd hok id

end steps

/-! ## The measure -/

variable [Fintype Tid]

def life (s : ServiceState Tid K) : Nat :=
  tally ServiceWorker.weight s.workers + ∑ a ∈ Finset.range s.numSessions, (s.session a).weight

def reading (s : ServiceState Tid K) : Nat := tally (fun w => w.task.reading) s.workers

def left (size : K.Prog → Nat) (s : ServiceState Tid K) : Nat := tally (fun w => w.task.left size) s.workers

def sendWork (s : ServiceState Tid K) : Nat := ∑ a ∈ Finset.range s.numSessions, (s.session a).send.work

/-- The measure. -/
def drain (size : K.Prog → Nat) (s : ServiceState Tid K) : Nat ×ₗ Nat ×ₗ Nat ×ₗ Nat :=
  toLex (s.life, toLex (s.reading, toLex (s.left size, s.sendWork)))

theorem drain_of_life (h : s'.life < s.life) : s'.drain size < s.drain size := Prod.Lex.left _ _ h

theorem drain_of_reading (h : s'.life ≤ s.life) (hr : s'.reading < s.reading) : s'.drain size < s.drain size :=
  lex_of_le h (Prod.Lex.left _ _ hr)

theorem drain_of_left (h : s'.life ≤ s.life) (hr : s'.reading ≤ s.reading) (hl : s'.left size < s.left size) :
    s'.drain size < s.drain size :=
  lex_of_le h (lex_of_le hr (Prod.Lex.left _ _ hl))

theorem drain_of_send (h : s'.life ≤ s.life) (hr : s'.reading ≤ s.reading) (hl : s'.left size ≤ s.left size)
    (hs : s'.sendWork < s.sendWork) : s'.drain size < s.drain size :=
  lex_of_le h (lex_of_le hr (lex_of_le hl hs))

variable [DecidableEq Tid]

/-! ## One thread and one session change -/

theorem reading_of (hw : s'.workers = update s.workers t w) :
    s'.reading + (s.workers t).task.reading = s.reading + w.task.reading := by
  unfold reading
  rw [hw]
  exact tally_update (fun w => w.task.reading) s.workers t w

theorem left_of (size : K.Prog → Nat) (hw : s'.workers = update s.workers t w) :
    s'.left size + (s.workers t).task.left size = s.left size + w.task.left size := by
  unfold left
  rw [hw]
  exact tally_update (fun w => w.task.left size) s.workers t w

theorem life_of (s₁ : ServiceState Tid K) (hw : s₁.workers = update s.workers t w)
    (hs : s₁.session = update s.session a x) (hn : s₁.numSessions = s.numSessions) (ha : a < s.numSessions) :
    s₁.life + ((s.workers t).weight + (s.session a).weight) = s.life + (w.weight + x.weight) := by
  have h1 := tally_update ServiceWorker.weight s.workers t w
  have h2 := sum_update Session.weight s.session (Finset.mem_range.2 ha) x
  unfold life
  rw [hw, hs, hn]
  omega

theorem life_of_worker (s₁ : ServiceState Tid K) (hw : s₁.workers = update s.workers t w)
    (hs : ∀ b, (s₁.session b).weight = (s.session b).weight) (hn : s₁.numSessions = s.numSessions) :
    s₁.life + (s.workers t).weight = s.life + w.weight := by
  have h1 := tally_update ServiceWorker.weight s.workers t w
  unfold life
  simp only [hw, hs, hn]
  omega

/-- A task goes on, and less is left of the lives, or of the packets. -/
theorem drain_of_task (hw : s.workers t = ⟨task, none, none⟩) (hw' : s'.workers = update s.workers t ⟨task', none, none⟩)
    (hs : s'.session = update s.session a x) (hn : s'.numSessions = s.numSessions) (ha : a < s.numSessions)
    (h : task'.weight + x.weight < task.weight + (s.session a).weight ∨
      task'.weight + x.weight ≤ task.weight + (s.session a).weight ∧ task'.reading < task.reading) :
    s'.drain size < s.drain size := by
  have hlife := life_of s' hw' hs hn ha
  have hreading := reading_of hw'
  simp only [hw, ServiceWorker.weight, Option.map_none, Option.getD_none] at hlife
  simp only [hw] at hreading
  rcases h with hlt | ⟨hle, hlt⟩
  · exact drain_of_life (by omega)
  · exact drain_of_reading (by omega) (by omega)

/-- A task goes on, and the sessions weigh the same. -/
theorem drain_of_goto (hw : s.workers t = ⟨task, none, none⟩) (hw' : s'.workers = update s.workers t ⟨task', none, none⟩)
    (hs : ∀ b, (s'.session b).weight = (s.session b).weight) (hn : s'.numSessions = s.numSessions)
    (hlt : task'.weight < task.weight) : s'.drain size < s.drain size := by
  have hlife := life_of_worker s' hw' hs hn
  simp only [hw, ServiceWorker.weight, Option.map_none, Option.getD_none] at hlife
  exact drain_of_life (by omega)

/-! ## `Disconnect` -/

theorem drain_hangUp (hw : s.workers t = ⟨task, none, none⟩)
    (hw' : s'.workers = update s.workers t ⟨task', none, some (a, .register)⟩)
    (hs : s'.session = update s.session a
      { s.session a with send := { (s.session a).send with connected := false } })
    (hn : s'.numSessions = s.numSessions) (ha : a < s.numSessions) (hc : (s.session a).send.connected = true)
    (hlt : task'.weight < task.weight) : s'.drain size < s.drain size := by
  have hlife := life_of s' hw' hs hn ha
  simp only [hw, ServiceWorker.weight, Session.weight, hc, ClosePc.weight, Option.map_some, Option.map_none,
    Option.getD_some, Option.getD_none, Bool.toNat_true, Bool.toNat_false] at hlife
  exact drain_of_life (by omega)

theorem drain_close {answer : Answer} {pc : ClosePc} {pc' : Option ClosePc}
    (hc : (s.workers t).closing = some (a, pc)) (h : CloseStep answer (s.session a) pc x pc')
    (hw' : s'.workers = update s.workers t { s.workers t with closing := pc'.map (fun pc => (a, pc)) })
    (hs : s'.session = update s.session a x) (hn : s'.numSessions = s.numSessions) (ha : a < s.numSessions) :
    s'.drain size < s.drain size := by
  have hlife := life_of s' hw' hs hn ha
  have hdrains := h.drains
  have hclosing : ((pc'.map (fun pc => (a, pc))).map (fun c => c.2.weight)).getD 0 = (pc'.map ClosePc.weight).getD 0 := by
    cases pc' <;> rfl
  simp only [ServiceWorker.weight, hc, hclosing, Option.map_some, Option.getD_some] at hlife
  exact drain_of_life (by omega)

/-! ## The sending code -/

/-- Thread `t` is in the sending code of session `a`, and its task is no heavier after the step. -/
theorem life_setSend {send : SendState Tid Buf} (hc : (s.workers t).closing = none)
    (ht : task.weight ≤ (s.workers t).task.weight) (ha : a < s.numSessions)
    (hconn : send.connected = true → (s.session a).send.connected = true) :
    (s.setSend t a task send).life ≤ s.life := by
  have := life_of (s := s) (t := t) (s.setSend t a task send) rfl rfl rfl ha
  simp only [ServiceWorker.weight, Session.weight, hc, Option.map_none, Option.getD_none] at this
  by_cases hcl : (s.session a).send.connected = true ∧ send.connected = false
  · rw [if_pos hcl, hcl.1, hcl.2] at this
    simp only [ClosePc.weight, Option.map_some, Option.getD_some, Bool.toNat_true, Bool.toNat_false] at this
    omega
  · rw [if_neg hcl] at this
    have hsame : send.connected = (s.session a).send.connected := by
      cases h1 : send.connected <;> cases h2 : (s.session a).send.connected <;> simp_all
    rw [hsame] at this
    simp only [Option.map_none, Option.getD_none] at this
    omega

theorem sendWork_setSend {send : SendState Tid Buf} (ha : a < s.numSessions)
    (hlt : send.work < (s.session a).send.work) : (s.setSend t a task send).sendWork < s.sendWork := by
  have := sum_update (fun x : Session Tid Buf => x.send.work) s.session (Finset.mem_range.2 ha)
    { s.session a with send := send }
  unfold sendWork
  simp only [setSend, setWorker, setSession] at this ⊢
  omega

/-- Every session's sending code brings its work down. -/
def Works (s : ServiceState Tid K) : Prop :=
  ∀ a act send, sendStep (s.session a).send act = some send → NoNewCalls (s.session a).send act send →
    send.work < (s.session a).send.work

theorem drain_setSend {act : SendAct Tid Buf} {send : SendState Tid Buf} (hc : (s.workers t).closing = none)
    (ha : a < s.numSessions) (hworks : s.Works) (he : sendStep (s.session a).send act = some send)
    (hok : NoNewCalls (s.session a).send act send) :
    (s.setSend t a (s.workers t).task send).drain size < s.drain size := by
  have hw : (s.setSend t a (s.workers t).task send).workers = update s.workers t _ := rfl
  have hr := reading_of hw
  have hl := left_of size hw
  exact drain_of_send (life_setSend hc (Nat.le_refl _) ha (sendStep_connected he))
    (Nat.le_of_eq (Nat.add_right_cancel hr)) (Nat.le_of_eq (Nat.add_right_cancel hl))
    (sendWork_setSend ha (hworks a act send he hok))

/-- A new session, for which the thread has less to do. -/
theorem drain_createSession {f : Nat → Task K.Prog Buf} (hw : s.workers t = ⟨task, none, none⟩)
    (hlt : (f s.numSessions).weight + 1 < task.weight) : (s.createSession t f).drain size < s.drain size := by
  have h1 := tally_update ServiceWorker.weight s.workers t ⟨f s.numSessions, none, none⟩
  have h2 : ∑ b ∈ Finset.range s.numSessions, ((update s.session s.numSessions .new) b).weight =
      ∑ b ∈ Finset.range s.numSessions, (s.session b).weight :=
    Finset.sum_congr rfl (fun b hb => by rw [update_of_ne (Finset.mem_range.1 hb).ne])
  refine drain_of_life ?_
  unfold life
  simp only [createSession, goto, setWorker, setSession, Finset.sum_range_succ, update_self, h2]
  simp only [hw, ServiceWorker.weight, Option.map_none, Option.getD_none] at h1
  have h3 : (Session.new : Session Tid Buf).weight = 1 := rfl
  omega

omit [DecidableEq Tid] in
theorem drain_dispatch (owner : Bool) : (s.dispatch owner).drain size = s.drain size := by
  unfold dispatch
  split <;> rfl

end ServiceState

variable [Fintype Tid] [DecidableEq Tid] {s s' : ServiceState Tid K} {size : K.Prog → Nat}

theorem SendsInv.works (h : SendsInv s) : s.Works := by
  refine h.send (P := fun x => ∀ act send, sendStep x act = some send → NoNewCalls x act send →
    send.work < x.work) ?_ ?_
  · intro act send he hok
    cases act with
    | next t answer => cases he
    | complete t i n => cases he
    | send t b => exact absurd hok id
    | disconnect => exact absurd hok id
  · intro x hx act send he hok
    obtain ⟨w, hfifo⟩ := sendFifo_of_reach hx
    exact work_step hfifo he hok

namespace ServiceState

/-- **The step lemma.** -/
theorem drain_step (hK : K.Shrinks size) (hinv : ServiceInv s) (hsends : SendsInv s) {type : ServiceType}
    {junk : Nat → BYTE} {act : ServiceAct Tid Buf} (he : serviceStep type junk s act = some s')
    (hok : Draining s act s') : s'.drain size < s.drain size := by
  have hL := hinv.life
  have hcrash : s'.crashed = none := (serviceStep_inv hinv he).crashed
  have hworks := hsends.works
  cases serviceStep_effect he with
  | @task t answer a x task task' hw hstep =>
    refine drain_of_task hw rfl rfl rfl (lt_of_session hL hw hstep.session) (hstep.drains (hsends.sized a).1
      (fun htask => hok.1 ⟨a, by rw [hw, htask]⟩) (fun processLen htask hhead => ?_))
    exact hok.2 ⟨a, processLen, by rw [hw, htask], hhead⟩
  | lock hw hstep =>
    obtain ⟨hsession, hworkers, hnum, -⟩ := hstep.same
    obtain ⟨hlt, hx⟩ := hstep.drains hok
    refine drain_of_goto hw hworkers (fun b => ?_) hnum hlt
    rw [hsession]
    exact apply_update_of_eq Session.weight s.session hx b
  | @goOn t answer a inside after note prog prog' contents hw hv hstep =>
    obtain ⟨hweight, hreading, hleft⟩ := hv.left size prog prog'
    have hlt : size prog' < size prog := hK _ _ _ _ hstep _ rfl
    have hw' : (ServiceState.goto { s with contents := contents } t (inside prog')).workers =
      update s.workers t ⟨inside prog', none, none⟩ := rfl
    have h1 := life_of_worker _ hw' (fun _ => rfl) rfl
    have h2 := reading_of hw'
    have h3 := left_of size hw'
    simp only [hw, ServiceWorker.weight, hweight, Option.map_none, Option.getD_none] at h1
    simp only [hw, hreading] at h2
    simp only [hw, hleft, (hv.left size prog' prog).2.2] at h3
    exact drain_of_left (by omega) (by omega) (by omega)
  | @ret t answer a inside after note prog contents hw hv _ =>
    refine drain_of_task (x := { s.session a with history := note (s.session a).history }) hw rfl rfl rfl
      (lt_of_session hL hw (hv.session prog)) ?_
    rcases hv.drains prog with hlt | ⟨hle, hlt⟩
    · exact .inl (Nat.add_lt_add_right hlt _)
    · exact .inr ⟨Nat.add_le_add_right hle _, hlt⟩
  | @callSend t act b sendBuffer contents task task' send hw hsender hsend =>
    obtain ⟨hweight, hreading, hleft⟩ := hsender.drains hK hok
    have hb := lt_numSessions hL (hsender.added hL hinv.kept.lock.broadcasts hw).1
    have hlife : (s.setSend t b task' send).life ≤ s.life :=
      life_setSend (by rw [hw]) (by rw [hw]; exact Nat.le_of_eq hweight) hb (sendStep_connected hsend)
    have hw' : (s.setSend t b task' send).workers = update s.workers t _ := rfl
    have h1 := reading_of hw'
    have h2 := left_of size hw'
    simp only [hw] at h1 h2
    have hdrain : (s.setSend t b task' send).drain size < s.drain size := drain_of_left hlife (by omega) (by omega)
    exact hdrain
  | sending hc hsending hsend =>
    exact drain_setSend hc (lt_numSessions hL (marking_pos (p := .sending) (mem_marks_sending hsending))) hworks hsend
      trivial
  | hangUp hw hh hc =>
    exact drain_hangUp hw rfl rfl rfl (lt_of_session hL hw (hh.session hok)) hc (hh.drains hok)
  | hungUp hw hh _ => exact drain_of_goto hw rfl (fun _ => rfl) rfl (hh.drains hok)
  | close hc hstep =>
    exact drain_close hc hstep rfl rfl rfl (lt_numSessions hL (marking_pos ((mem_marks_closing _).2 hc)))
  | create hw hc =>
    cases hc with
    | accept answer => exact drain_createSession hw (by simp)
    | connect => exact absurd hok id
  | startAccept _ _ => exact absurd hok id
  | take hw _ hd =>
    rw [drain_dispatch]
    refine drain_of_task hw rfl rfl rfl (hd.lt hL) (.inl ?_)
    rw [show (Task.idle : Task K.Prog Buf).weight = 0 from rfl, Nat.zero_add]
    exact hd.drains hok
  | @takeSend t error a i numOfBytes send hw _ hsend =>
    have hlen : i < (s.session a).send.outstanding.length := by
      simp only [sendStep] at hsend
      split at hsend
      · split at hsend
        · assumption
        · cases hsend
      · cases hsend
    have ha := lt_numSessions (a := a) (p := .sendOp) hL (by
      rw [marking_flag _ _ rfl]
      exact Nat.lt_of_le_of_lt (Nat.zero_le i) hlen)
    have hlt : (s.setSend t a (s.workers t).task send).drain size < s.drain size :=
      drain_setSend (by rw [hw]) ha hworks hsend trivial
    rw [drain_dispatch]
    rwa [hw] at hlt
  | releaseFails _ _ _ => cases hcrash
  | @destroy a ha hd _ =>
    have := sum_update Session.weight s.session (Finset.mem_range.2 ha) { s.session a with destroyed := true }
    refine drain_of_life ?_
    unfold life
    simp only [setSession] at this ⊢
    simp only [Session.weight, hd, Bool.not_true, Bool.not_false, Bool.toNat_true, Bool.toNat_false] at this ⊢
    omega

end ServiceState

end Geon
