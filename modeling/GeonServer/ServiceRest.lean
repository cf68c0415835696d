import GeonServer.ServiceDrain
import GeonServer.ServiceFaults
/-!
# ServiceRest — once the peers have hung up, a service comes to rest

From the moment when nobody new comes, every receive that completes is empty and `AcceptEx` does not fail, every order
of the steps and of the completions comes to an end (`service_drains`).  Then no thread is inside and nothing is in
flight; each session that was added has been released once, or its `DisconnectEx` was lost, or it is still connected and
deaf; and the library refers to no other session but those of the `AcceptEx` operations.  In a run without the two
errors the set is empty.
-/
namespace Geon

open Net Lts Function

variable {Tid Buf : Type} {K : Contents Buf}

/-! ## `_sendEvent.owner` is cleared -/

/-- The thread is between setting `_sendEvent.owner` and clearing it. -/
def SendPc.owns : SendPc Buf → Bool
  | .registerDrain _ | .registerPost _ | .registerError _ _ | .registerReset _ | .processClear _ => true
  | _ => false

/-- `_sendEvent.owner` is only set for a thread or a send in flight. -/
def SendState.Owes (x : SendState Tid Buf) : Prop :=
  x.sendEvent.owner = true → x.outstanding ≠ [] ∨ ∃ t, (x.pcs t).owns = true

section

variable [DecidableEq Tid] {x x₁ x' : SendState Tid Buf} {t : Tid} {pc : SendPc Buf}

theorem SendState.Owes.goto (h : x.Owes) (hpcs : x₁.pcs = x.pcs)
    (howner : x₁.sendEvent.owner = true → x.sendEvent.owner = true ∨ pc.owns = true)
    (hpc : (x.pcs t).owns = true → x₁.sendEvent.owner = true → pc.owns = true ∨ x₁.outstanding ≠ [])
    (hout : x.outstanding ≠ [] → x₁.outstanding ≠ [] ∨ pc.owns = true) : (x₁.goto t pc).Owes := by
  intro ho
  have hself : pc.owns = true → ∃ u, ((x₁.goto t pc).pcs u).owns = true := fun hp =>
    ⟨t, by simpa only [SendState.goto, update_self] using hp⟩
  rcases howner ho with ho' | hp
  · rcases h ho' with hne | ⟨u, hu⟩
    · exact (hout hne).imp_right hself
    · by_cases hut : u = t
      · subst hut
        exact (hpc hu ho).symm.imp_right hself
      · exact .inr ⟨u, by simpa only [SendState.goto, hpcs, update_of_ne hut] using hu⟩
  · exact .inr (hself hp)

/-- The thread had not set the owner, and does not. -/
theorem SendState.Owes.pass (h : x.Owes) (hpcs : x₁.pcs = x.pcs) (howner : x₁.sendEvent = x.sendEvent)
    (hout : x₁.outstanding = x.outstanding) (hpc : (x.pcs t).owns = false) : (x₁.goto t pc).Owes :=
  h.goto hpcs (fun ho => .inl (howner ▸ ho)) (fun hn => by rw [hpc] at hn; cases hn) (fun hne => .inl (hout ▸ hne))

/-- The thread has the owner, and keeps it. -/
theorem SendState.Owes.keep (h : x.Owes) (hpcs : x₁.pcs = x.pcs) (hpc : pc.owns = true) : (x₁.goto t pc).Owes :=
  h.goto hpcs (fun _ => .inr hpc) (fun _ _ => .inl hpc) (fun _ => .inr hpc)

/-- The thread clears the owner. -/
theorem SendState.Owes.clear (h : x₁.sendEvent.owner = false) : (x₁.goto t pc).Owes := fun ho => by
  simp only [SendState.goto, h] at ho
  cases ho

theorem SendState.Owes.next (h : x.Owes) {wsaSend : WsaResult} (he : x.next t wsaSend = some x') : x'.Owes := by
  unfold SendState.next at he
  cases hpc : x.pcs t <;> simp only [hpc] at he
  case idle => cases he
  case sendPush sendBuffer =>
    split at he <;> cases he
    split
    · exact h.pass rfl rfl rfl (by rw [hpc]; rfl)
    · exact h.pass rfl rfl rfl (by rw [hpc]; rfl)
  case registerCheck locked =>
    split at he <;> cases he
    · exact h.pass rfl rfl rfl (by rw [hpc]; rfl)
    · exact h.keep rfl rfl
  case registerDrain locked =>
    split at he <;> cases he
    exact h.keep rfl rfl
  case registerPost locked =>
    split at he <;> cases he
    · -- the send is in flight now
      refine h.goto rfl .inl (fun _ _ => .inr ?_) (fun _ => .inl ?_) <;> simp
    · exact h.keep rfl rfl
  case registerError locked errorCode => split at he <;> cases he <;> exact h.keep rfl rfl
  case registerReset locked =>
    cases he
    exact .clear rfl
  case processClear numOfBytes =>
    cases he
    exact .clear rfl
  case processCheck numOfBytes => split at he <;> cases he <;> exact h.pass rfl rfl rfl (by rw [hpc]; rfl)
  case processLock =>
    split at he <;> cases he
    exact h.pass rfl rfl rfl (by rw [hpc]; rfl)
  case processEmpty => split at he <;> cases he <;> exact h.pass rfl rfl rfl (by rw [hpc]; rfl)
  case processUnlock =>
    cases he
    exact h.pass rfl rfl rfl (by rw [hpc]; rfl)

theorem sendStep_owes (h : x.Owes) {act : SendAct Tid Buf} (he : sendStep x act = some x') : x'.Owes := by
  cases act with
  | next t wsaSend => exact h.next he
  | disconnect =>
    cases he
    exact h
  | send t sendBuffer =>
    simp only [sendStep] at he
    split at he
    · rename_i hpc
      cases he
      split
      · exact h
      · exact h.pass rfl rfl rfl (by rw [hpc]; rfl)
    · cases he
  | complete t i numOfBytes =>
    simp only [sendStep] at he
    split at he
    · split at he <;> cases he
      exact h.keep rfl rfl
    · cases he

end

namespace ServiceState

variable [Fintype Tid] [DecidableEq Tid] {s s' : ServiceState Tid K} {t : Tid} {a : Nat} {task : Task K.Prog Buf}

/-! ## Where nothing is left -/

/-- The virtual function that the thread is in does not go on: it is stuck, or sends on a session it does not know. -/
def Hangs (s : ServiceState Tid K) (t : Tid) : Prop :=
  ∃ c a prog, (s.workers t).task.callback = some (c, a, prog) ∧ ∀ out, K.step s.contents a prog = some out →
    ∃ contents b sendBuffer prog', out = .send contents b sendBuffer prog' ∧ ¬ s.known b

/-- A session that was added has been released once, or it is in the set for good: connected and without a receive, or
with its `DisconnectEx` lost. -/
def Ended (s : ServiceState Tid K) (a : Nat) : Prop :=
  a ∉ s.sessions ∧ (s.session a).send.connected = false ∧ (s.session a).history.parted = 1 ∧
      (s.session a).history.released = 1 ∧ (s.session a).history.lost = 0 ∨
    a ∈ s.sessions ∧ (s.session a).history.released = 0 ∧
      ((s.session a).send.connected = true ∨ (s.session a).history.lost = 1)

/-- A service at rest.  What the library does not refer to lives as long as the contents keep it. -/
structure Drained (s : ServiceState Tid K) : Prop where
  idle : ∀ t, s.workers t = ⟨.idle, none, none⟩
  unlocked : s.lock = none
  quiet : ∀ a, (s.session a).connectEvent.ops = [] ∧ (s.session a).disconnectEvent.ops = [] ∧
    (s.session a).recvEvent.ops = [] ∧ (s.session a).send.outstanding = [] ∧ SendIdle (s.session a).send
  ended : ∀ a, 0 < (s.session a).history.added → (s.session a).history.greeted = 1 ∧ s.Ended a
  unreferenced : ∀ a, a ∉ s.sessions → (s.session a).accepts = [] → ¬ s.referenced a

/-- The steps that are sure to come: a session is destroyed only when the contents have let go of it as well. -/
def Due (s : ServiceState Tid K) (act : ServiceAct Tid Buf) (s' : ServiceState Tid K) : Prop :=
  Draining s act s' ∧ ∀ a, act ≠ .destroy a

/-- Every run of what is left comes to an end, and `P` holds where it ends, and before that where destructors are all
that is left to run. -/
structure Drains (type : ServiceType) (junk : Nat → BYTE) (P : ServiceState Tid K → Prop) (s : ServiceState Tid K) :
    Prop where
  ends : Ends (serviceStep type junk) Draining P s
  rests : ∀ s', Reach (serviceStep type junk) Draining s s' → Stuck (serviceStep type junk) Due s' → P s'

variable {type : ServiceType} {junk : Nat → BYTE}

omit [Fintype Tid] in
theorem callSend_isSome (hlinked : s.Linked) (hsending : (s.workers t).sending = none) (b : Nat) (sendBuffer : Buf)
    (task : Task K.Prog Buf) : s.callSend t b sendBuffer task ≠ none := by
  have hidle : (s.session b).send.pcs t = .idle := by
    by_contra hne
    have := (hlinked t b).2 hne
    rw [hsending] at this
    cases this
  unfold callSend
  simp only [sendStep, hidle, ne_eq, Option.map_eq_none_iff, reduceCtorEq, not_false_eq_true]

omit [Fintype Tid] in
theorem callback_isSome (hlinked : s.Linked) (hsending : (s.workers t).sending = none) (hhangs : ¬ s.Hangs t)
    {c : Callback} {prog : K.Prog} {inside : K.Prog → Task K.Prog Buf} {after : Task K.Prog Buf}
    {note : History → History} (hc : (s.workers t).task.callback = some (c, a, prog)) :
    s.callback t a prog inside after note ≠ none := by
  unfold callback
  split
  · rename_i hnone
    refine absurd ⟨c, a, prog, hc, fun out hout => ?_⟩ hhangs
    rw [hnone] at hout
    cases hout
  · exact fun hn => by cases hn
  · rename_i contents b sendBuffer prog' hstep
    split
    · exact callSend_isSome (s := { s with contents := contents }) hlinked hsending b sendBuffer _
    · rename_i hknown
      refine absurd ⟨c, a, prog, hc, fun out hout => ?_⟩ hhangs
      rw [hstep] at hout
      cases hout
      exact ⟨_, _, _, _, rfl, hknown⟩
  · exact fun hn => by cases hn

omit [Fintype Tid] in
/-- What a thread at this task waits for. -/
theorem task_of_none (hlinked : s.Linked) (hw : s.workers t = ⟨task, none, none⟩) (hhangs : ¬ s.Hangs t)
    {answer : Answer} (hnone : s.taskNext type junk t answer task = none) :
    task = .idle ∨ task.locks = false ∧ s.lock ≠ none := by
  have hsending : (s.workers t).sending = none := by rw [hw]
  cases task with
  | idle => exact .inl rfl
  | registerConnect a pc => cases hnone
  | registerAccept => cases hnone
  | acceptEx a => cases hnone
  | processAccept a => cases hnone
  | processConnect a accepted pc =>
    simp only [taskNext] at hnone
    cases pc with
    | store => cases hnone
    | lock =>
      simp only [openNext] at hnone
      split at hnone
      · cases hnone
      · exact .inr ⟨rfl, ‹_›⟩
    | insert => cases hnone
    | onConnected prog =>
      unfold openNext at hnone
      exact absurd hnone (callback_isSome hlinked hsending hhangs (c := .onConnected) (by rw [hw]; rfl))
  | registerRecv a accepted pc => cases hnone
  | processRecv a pc =>
    simp only [taskNext] at hnone
    cases pc with
    | clear numOfBytes => cases hnone
    | check numOfBytes =>
      simp only [readNext] at hnone
      split at hnone
      · cases hnone
      · split at hnone <;> cases hnone
    | loop processLen =>
      simp only [readNext] at hnone
      split at hnone
      · cases hnone
      · split at hnone
        · cases hnone
        · split at hnone <;> cases hnone
    | packet processLen prog =>
      unfold readNext at hnone
      exact absurd hnone (callback_isSome hlinked hsending hhangs (c := .onRecvPacket) (by rw [hw]; rfl))
  | processDisconnect a pc =>
    simp only [taskNext] at hnone
    cases pc with
    | clear => cases hnone
    | onDisconnected prog =>
      unfold partNext at hnone
      exact absurd hnone (callback_isSome hlinked hsending hhangs (c := .onDisconnected) (by rw [hw]; rfl))
    | release =>
      simp only [partNext] at hnone
      split at hnone
      · split at hnone <;> cases hnone
      · exact .inr ⟨rfl, ‹_›⟩
    | uncount => cases hnone
  | broadcast sendBuffer todo =>
    cases todo with
    | nil => cases hnone
    | cons b todo => exact absurd hnone (callSend_isSome hlinked hsending b sendBuffer _)

/-- **Nobody waits forever**: where no thread can go on, all are idle, or one hangs in a virtual function. -/
theorem idle_of_none (hinv : ServiceInv s) (hlinked : s.Linked) (hheld : ∀ a, LockHeld (s.session a).send)
    (hhangs : ∀ t, ¬ s.Hangs t) (hnone : ∀ t, s.next type junk t .success = none) :
    (∀ t, s.workers t = ⟨.idle, none, none⟩) ∧ s.lock = none ∧ ∀ a, SendIdle (s.session a).send := by
  have hclosing : ∀ t, (s.workers t).closing = none := fun t => by
    cases hc : (s.workers t).closing with
    | none => rfl
    | some c =>
      have := hnone t
      unfold next at this
      rw [hc] at this
      cases this
  -- nobody is in the sending code of a session
  have hsend : ∀ a, SendIdle (s.session a).send := fun a => by
    refine (idle_of_no_next (hheld a) (fun t => ?_)).1
    by_cases hidle : (s.session a).send.pcs t = .idle
    · unfold SendState.next
      rw [hidle]
    · have hn := hnone t
      unfold next at hn
      simp only [hclosing t, (hlinked t a).2 hidle] at hn
      exact Option.map_eq_none_iff.1 hn
  have hsending : ∀ t, (s.workers t).sending = none := fun t => by
    cases hs : (s.workers t).sending with
    | none => rfl
    | some a => exact absurd (hsend a t) ((hlinked t a).1 hs)
  have htask : ∀ t, s.taskNext type junk t .success (s.workers t).task = none := fun t => by
    have hn := hnone t
    unfold next at hn
    simpa only [hclosing t, hsending t] using hn
  have hworker : ∀ t, s.workers t = ⟨(s.workers t).task, none, none⟩ := fun t => worker_eq (hclosing t) (hsending t)
  have hlock : s.lock = none := by
    by_contra hne
    obtain ⟨u, hu⟩ := Option.ne_none_iff_exists'.1 hne
    have hlocks := (hinv.kept.lock.holder u).2 hu
    rcases task_of_none hlinked (hworker u) (hhangs u) (htask u) with hidle | ⟨hfree, -⟩
    · rw [hidle] at hlocks
      cases hlocks
    · rw [hfree] at hlocks
      cases hlocks
  refine ⟨fun t => ?_, hlock, hsend⟩
  rcases task_of_none hlinked (hworker t) (hhangs t) (htask t) with hidle | ⟨-, hne⟩
  · rw [hworker t, hidle]
  · exact absurd hlock hne

omit [DecidableEq Tid] in
theorem marking_of_idle (hidle : ∀ t, s.workers t = ⟨.idle, none, none⟩) {p : Place} (hp : p.inCode = true) :
    s.marking a p = 0 :=
  marking_eq_zero hp (fun t ht => by
    rw [hidle t] at ht
    cases ht)

omit [DecidableEq Tid] in
/-- What the life of a session has come to when no thread is with it and nothing of it is in flight. -/
theorem ended_of_idle (hL : Life (s.marking a)) (hidle : ∀ t, s.workers t = ⟨.idle, none, none⟩)
    (hop : (s.session a).disconnectEvent.ops = []) (hadded : 0 < (s.session a).history.added) :
    (s.session a).history.greeted = 1 ∧ s.Ended a := by
  have hfacts := hL.facts
  have honce := hfacts.entering_le
  have hgreeted := hfacts.greeted
  have hlife := hfacts.life
  have hparted := hfacts.parted
  have hreleased := hfacts.released
  have hmember := hfacts.member
  have hzero : ∀ p : Place, p.inCode = true → s.marking a p = 0 := fun p hp => marking_of_idle hidle hp
  have z1 := hzero .adding rfl
  have z2 := hzero .greeting rfl
  have z3 := hzero .closing rfl
  have z4 := hzero .closePosting rfl
  have z5 := hzero .closeReset rfl
  have z6 := hzero .partClearing rfl
  have z7 := hzero .parting rfl
  have z8 := hzero .releasing rfl
  rw [marking_disconnectOp, hop, List.length_nil] at hlife
  have e1 : s.marking a .greeted = (s.session a).history.greeted := marking_flag s a rfl
  have e2 : s.marking a .parted = (s.session a).history.parted := marking_flag s a rfl
  have e3 : s.marking a .released = (s.session a).history.released := marking_flag s a rfl
  have e4 : s.marking a .lost = (s.session a).history.lost := marking_flag s a rfl
  have e5 := marking_added s a
  have e6 := marking_connected s a
  have e7 := marking_member s a
  refine ⟨by omega, ?_⟩
  by_cases hm : a ∈ s.sessions
  · rw [decide_eq_true hm, Bool.toNat_true] at e7
    refine .inr ⟨hm, by omega, ?_⟩
    cases hc : (s.session a).send.connected with
    | true => exact .inl rfl
    | false =>
      rw [hc, Bool.toNat_false] at e6
      exact .inr (by omega)
  · rw [decide_eq_false hm, Bool.toNat_false] at e7
    have hc : (s.session a).send.connected.toNat = 0 := by omega
    exact .inl ⟨hm, Bool.toNat_eq_zero.1 hc, by omega, by omega, by omega⟩

omit [DecidableEq Tid] in
/-- Nobody refers to a session that is not in the set and that no `AcceptEx` is for. -/
theorem not_referenced (hL : Life (s.marking a)) (hidle : ∀ t, s.workers t = ⟨.idle, none, none⟩)
    (howes : (s.session a).send.Owes) (hsend : SendIdle (s.session a).send)
    (hconnect : (s.session a).connectEvent.ops = []) (hdisconnect : (s.session a).disconnectEvent.ops = [])
    (hrecv : (s.session a).recvEvent.ops = []) (hout : (s.session a).send.outstanding = [])
    (haccepts : (s.session a).accepts = []) (hmem : a ∉ s.sessions) : ¬ s.referenced a := by
  have hfacts := hL.facts
  have hzero : ∀ p : Place, p.inCode = true → s.marking a p = 0 := fun p hp => marking_of_idle hidle hp
  have h1 := hfacts.connectOwner
  have h2 := hfacts.disconnectOwner
  have h3 := hfacts.recvOwner
  rw [marking_connectOwner, marking_connectOp, hconnect, hzero .connectPosting rfl, hzero .connectReset rfl,
    hzero (.opening false) rfl] at h1
  rw [marking_disconnectOwner, marking_disconnectOp, hdisconnect, hzero .closePosting rfl, hzero .closeReset rfl,
    hzero .partClearing rfl] at h2
  rw [marking_recvOwner, marking_recvOp, hrecv, hzero .recvPosting rfl, hzero .recvFailed rfl, hzero .recvReset rfl,
    hzero (.recvClearing false) rfl, hzero (.recvClearing true) rfl] at h3
  rintro (ho | ho | ho | ho | ho | ho | ⟨t, ht⟩)
  · rw [ho] at h1
    cases h1
  · rw [ho] at h2
    cases h2
  · rw [ho] at h3
    cases h3
  · rcases howes ho with hne | ⟨t, ht⟩
    · exact hne hout
    · rw [hsend t] at ht
      cases ht
  · exact ho haccepts
  · exact hmem ho
  · rw [hidle t] at ht
    rcases ht with ht | ht | ht <;> cases ht

/-- **Where no step is left, the service is at rest**, or a thread spins or hangs. -/
theorem drained_of_stuck [Nonempty Tid] (hinv : ServiceInv s) (hsends : SendsInv s)
    (hheld : ∀ a, LockHeld (s.session a).send) (howes : ∀ a, (s.session a).send.Owes)
    (h : Stuck (serviceStep type junk) Due s)
    (hspins : ∀ t, ¬ s.Spins t) (hhangs : ∀ t, ¬ s.Hangs t) : s.Drained := by
  have hnone : ∀ t, s.next type junk t .success = none := fun t => by
    cases he : s.next type junk t .success with
    | none => rfl
    | some s' =>
      refine absurd ⟨⟨fun _ => rfl, hspins t⟩, nofun⟩ (h (.next t .success) s' ?_)
      unfold serviceStep
      rw [hinv.crashed]
      exact he
  obtain ⟨hidle, hlock, hsend⟩ := idle_of_none hinv hsends.linked hheld hhangs hnone
  obtain ⟨t⟩ := ‹Nonempty Tid›
  have hdequeue : ∀ completion, (∀ s', Draining s (.dequeue t completion none) s') →
      s.dequeue t none completion = none := fun completion hok => by
    cases he : s.dequeue t none completion with
    | none => rfl
    | some s' =>
      refine absurd ⟨hok s', nofun⟩ (h (.dequeue t completion none) s' ?_)
      have hi : s.isIdle t = true := by
        unfold isIdle
        rw [hidle t]
      unfold serviceStep
      simp only [hinv.crashed, hi, reduceCtorEq, ne_eq, not_false_eq_true, and_self, not_true, if_false, if_true]
      exact he
  have hconnect : ∀ a, (s.session a).connectEvent.ops = [] := fun a => by
    have hn := hdequeue (.connect a) (fun _ => trivial)
    cases hops : (s.session a).connectEvent.ops with
    | nil => rfl
    | cons op ops => simp only [dequeue, hops, reduceCtorEq] at hn
  have hdisconnect : ∀ a, (s.session a).disconnectEvent.ops = [] := fun a => by
    have hn := hdequeue (.disconnect a) (fun _ => trivial)
    cases hops : (s.session a).disconnectEvent.ops with
    | nil => rfl
    | cons op ops => simp only [dequeue, hops, reduceCtorEq] at hn
  have hrecv : ∀ a, (s.session a).recvEvent.ops = [] := fun a => by
    have hn := hdequeue (.recv a 0 []) (fun _ => rfl)
    cases hops : (s.session a).recvEvent.ops with
    | nil => rfl
    | cons posted ops =>
      have hlen : ((([] : List BYTE).length : Nat) : Int) ≤ posted.len := (hsends.sized a).2 posted (by
        rw [hops]
        exact List.mem_cons_self)
      simp only [dequeue, hops, List.getElem?_cons_zero, if_pos hlen, reduceCtorEq] at hn
  have hout : ∀ a, (s.session a).send.outstanding = [] := fun a => by
    have hn := hdequeue (.send a 0 1) (fun _ => trivial)
    by_contra hne
    simp only [dequeue, sendStep, hsend a t, if_pos (List.length_pos_iff.2 hne), Option.map_some, reduceCtorEq] at hn
  refine ⟨hidle, hlock, fun a => ⟨hconnect a, hdisconnect a, hrecv a, hout a, hsend a⟩,
    fun a ha => ended_of_idle (hinv.life a) hidle (hdisconnect a) ha, fun a hmem haccepts => ?_⟩
  exact not_referenced (hinv.life a) hidle (howes a) (hsend a) (hconnect a) (hdisconnect a) (hrecv a) (hout a) haccepts
    hmem

end ServiceState

/-! ## Every run -/

section

variable [Fintype Tid] [DecidableEq Tid] {s : ServiceState Tid K} {type : ServiceType} {junk : Nat → BYTE}

theorem SendsInv.lockHeld (h : SendsInv s) : ∀ a, LockHeld (s.session a).send :=
  h.send (fun t ht => by cases ht)
    (fun _ hx => hx.inv (P := LockHeld) (fun t ht => by cases ht) (fun _ _ _ _ hl he _ => lockHeld_step hl he))

theorem SendsInv.owes (h : SendsInv s) : ∀ a, (s.session a).send.Owes :=
  h.send (fun ho => by cases ho)
    (fun _ hx => hx.inv (P := SendState.Owes) (fun ho => by cases ho) (fun _ _ _ _ hx he _ => sendStep_owes hx he))

/-- No `DisconnectEx` fails at once, and no receive of a connected session fails with a code `HandleError` does not
know. -/
def Faultless (s : ServiceState Tid K) (act : ServiceAct Tid Buf) (s' : ServiceState Tid K) : Prop :=
  NoDisconnectFails s act s' ∧ RecvErrorsKnown s act s'

instance (s : ServiceState Tid K) (act : ServiceAct Tid Buf) (s' : ServiceState Tid K) :
    Decidable (Faultless s act s') :=
  inferInstanceAs (Decidable (_ ∧ _))

/-- Without those errors nobody is left in the set. -/
theorem sessions_of_drained {contents : K.State}
    (hs : Reach (serviceStep type junk) Faultless (serviceState₀ K contents) s) (h : s.Drained) : s.sessions = ∅ := by
  have hinv := ServiceReach.inv hs
  rw [Finset.eq_empty_iff_forall_notMem]
  intro a hmem
  have hadded := (ServiceState.known_of_member hinv.life hmem).1
  rw [ServiceState.marking_added] at hadded
  rcases (h.ended a hadded).2 with ⟨hout, -⟩ | ⟨-, -, hconn | hlost⟩
  · exact hout hmem
  · have hpos := recvOp_pos (hs.mono (fun _ _ _ hok => hok.2)) a (fun t ht => ?_) hconn
    · rw [ServiceState.marking_recvOp, (h.quiet a).2.2.1] at hpos
      cases hpos
    · rw [ServiceWorker.receiving, h.idle t] at ht
      rcases ht with ⟨_, _, ht⟩ | ⟨_, _, ht⟩ | ⟨_, ht⟩ <;> cases ht
  · have hzero := (lost_eq_zero (hs.mono (fun _ _ _ hok => hok.1)) a).2
    have e : s.marking a .lost = (s.session a).history.lost := ServiceState.marking_flag s a rfl
    omega

/-- **Every run of what is left comes to an end**, and there the service is at rest or a thread spins or hangs. -/
theorem ends_of_drained [Nonempty Tid] {size : K.Prog → Nat} (hK : K.Shrinks size) {contents : K.State}
    (hs : Reach (serviceStep type junk) Any (serviceState₀ K contents) s) {P : ServiceState Tid K → Prop}
    (hdrained : ∀ s, Reach (serviceStep type junk) Any (serviceState₀ K contents) s → s.Drained → P s)
    (hstops : ∀ s, Reach (serviceStep type junk) Any (serviceState₀ K contents) s → ∀ t, s.Spins t ∨ s.Hangs t → P s) :
    s.Drains type junk P := by
  have hrests : ∀ s, Reach (serviceStep type junk) Any (serviceState₀ K contents) s →
      Stuck (serviceStep type junk) ServiceState.Due s → P s := by
    intro s hr hstuck
    by_cases hstop : ∃ t, s.Spins t ∨ s.Hangs t
    · obtain ⟨t, ht⟩ := hstop
      exact hstops s hr t ht
    · have hsends := sendsInv_of_reach hr
      exact hdrained s hr (ServiceState.drained_of_stuck (ServiceReach.inv hr) hsends hsends.lockHeld hsends.owes
        hstuck (fun t ht => hstop ⟨t, .inl ht⟩) (fun t ht => hstop ⟨t, .inr ht⟩))
  refine ⟨?_, fun s' hr hstuck => hrests s' (hs.trans (hr.mono (fun _ _ _ _ => trivial))) hstuck⟩
  refine Ends.of_measure (I := Reach (serviceStep type junk) Any (serviceState₀ K contents)) (r := (· < ·))
    wellFounded_lt (ServiceState.drain size) ?_ ?_ ?_ hs
  · exact fun s act s' hr he _ => hr.next he trivial
  · exact fun s act s' hr he hok => ServiceState.drain_step hK (ServiceReach.inv hr) (sendsInv_of_reach hr) he hok
  · exact fun s hr hstuck => hrests s hr (fun act s' he hok => hstuck act s' he hok.1)

end

end Geon
