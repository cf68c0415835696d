import GeonServer.ChatCore
import GeonServer.ServiceFaults
import GeonServer.SendOrder
/-!
# SessionSends — every session of a service sends like the session of SendPath

SendPath has one session from its `ProcessConnect` on, with threads that come from nowhere.  Here it is the sending side
of each session of a service (`session_sends_refine`): nothing happens to it before `_connected` is set, and from then
on each step of the service is one of its steps or leaves it alone.  A thread is in the sending code of one session at
most, and the receive buffers keep their size (`Linked`, `Sized`).
-/
namespace Geon

open Net Lts Function

variable {Tid Buf : Type} {K : Contents Buf}

/-! ## What a step does to the sending side of a session -/

/-- A session that has not been connected. -/
def unopened : SendState Tid Buf := { sendState₀ with connected := false }

inductive SendEffect [DecidableEq Tid] (x x' : SendState Tid Buf) : Prop
  | same : x' = x → SendEffect x x'
  | opened : x' = { x with connected := true } → SendEffect x x'
  | step (act : SendAct Tid Buf) : sendStep x act = some x' → SendEffect x x'

/-- A receive buffer with its cursors in order. -/
def Sized (b : RecvBuffer) : Prop := b.Wf ∧ b.capacity = BUFFER_SIZE * BUFFER_COUNT

theorem sized_new : Sized (RecvBuffer.new BUFFER_SIZE) := ⟨RecvBuffer.wf_new _ (by decide), rfl⟩

theorem Sized.store {b : RecvBuffer} (h : Sized b) (pos : Int) (bytes : List BYTE) : Sized (b.store pos bytes) :=
  ⟨h.1.store pos bytes, h.2⟩

theorem Sized.onWrite {b b' : RecvBuffer} (h : Sized b) {n : Nat} (he : b.onWrite n = (true, b')) : Sized b' := by
  obtain ⟨⟨h1, h2, h3⟩, hcap⟩ := h
  unfold RecvBuffer.onWrite at he
  split at he
  · cases he
  · rename_i hle
    cases he
    unfold RecvBuffer.freeSize at hle
    exact ⟨⟨h1, by simp only; omega, by simp only; omega⟩, hcap⟩

theorem Sized.onRead {b b' : RecvBuffer} (h : Sized b) {n : Nat} (he : b.onRead n = (true, b')) : Sized b' := by
  obtain ⟨⟨h1, h2, h3⟩, hcap⟩ := h
  unfold RecvBuffer.onRead at he
  split at he
  · cases he
  · rename_i hle
    cases he
    unfold RecvBuffer.dataSize at hle
    exact ⟨⟨by simp only; omega, by simp only; omega, h3⟩, hcap⟩

theorem Sized.clean {b : RecvBuffer} (h : Sized b) (junk : Nat → BYTE) : Sized (b.clean junk) :=
  ⟨h.1.clean junk, by rw [RecvBuffer.capacity_clean, h.2]⟩

/-- There is never more in it than it holds. -/
theorem Sized.length_data {b : RecvBuffer} (h : Sized b) : b.data.length ≤ (BUFFER_SIZE * BUFFER_COUNT).toNat := by
  obtain ⟨⟨h1, h2, h3⟩, hcap⟩ := h
  rw [RecvBuffer.length_data, RecvBuffer.dataSize, ← hcap]
  omega

/-- The receives in flight are for no less than nothing. -/
def Receives (b : RecvBuffer) (ops : List PostedRecv) : Prop := Sized b ∧ ∀ posted ∈ ops, 0 ≤ posted.len

theorem receives_new : Receives (RecvBuffer.new BUFFER_SIZE) [] := ⟨sized_new, fun _ h => by cases h⟩

theorem Receives.post {b : RecvBuffer} {ops : List PostedRecv} (h : Receives b ops) :
    Receives b (ops ++ [⟨b.writePos, b.freeSize⟩]) := by
  refine ⟨h.1, fun posted hp => ?_⟩
  rcases List.mem_append.1 hp with hp | hp
  · exact h.2 posted hp
  · obtain ⟨⟨-, -, hle⟩, -⟩ := h.1
    rw [List.mem_singleton.1 hp]
    exact Int.sub_nonneg_of_le hle

theorem Receives.complete {b : RecvBuffer} {ops : List PostedRecv} (h : Receives b ops) (pos : Int)
    (bytes : List BYTE) (i : Nat) : Receives (b.store pos bytes) (ops.eraseIdx i) :=
  ⟨h.1.store pos bytes, fun posted hp => h.2 posted (List.mem_of_mem_eraseIdx hp)⟩

namespace ServiceState

variable {s s' : ServiceState Tid K} {t : Tid} {a : Nat} {w : ServiceWorker K.Prog Buf} {x : Session Tid Buf}
  {task task' : Task K.Prog Buf}

/-- A thread is in the sending code of the session that it says it is in. -/
def Linked (s : ServiceState Tid K) : Prop :=
  ∀ t a, (s.workers t).sending = some a ↔ (s.session a).send.pcs t ≠ .idle

/-! ## The receive buffers -/

section receives

variable {type : ServiceType} {junk : Nat → BYTE} {answer : Answer} {act : ServiceAct Tid Buf} {x' : Session Tid Buf}

theorem TaskStep.receives (h : TaskStep type junk answer a x task x' task')
    (hb : Receives x.recvBuffer x.recvEvent.ops) : Receives x'.recvBuffer x'.recvEvent.ops := by
  cases h with
  | recvPost accepted _ => exact hb.post
  | recvRead numOfBytes b _ hwrite => exact ⟨hb.1.onWrite hwrite, hb.2⟩
  | recvAgain processLen b _ hread => exact ⟨(hb.1.onRead hread).clean junk, hb.2⟩
  | _ => exact hb

theorem Dequeued.receives {error : Option Nat} {completion : Completion} {owner : Bool}
    (h : Dequeued error a x completion x' task' owner) (hb : Receives x.recvBuffer x.recvEvent.ops) :
    Receives x'.recvBuffer x'.recvEvent.ops := by
  cases h with
  | recv i bytes posted _ _ => exact hb.complete _ _ _
  | _ => exact hb

theorem CloseStep.receives {pc : ClosePc} {pc' : Option ClosePc} (h : CloseStep answer x pc x' pc')
    (hb : Receives x.recvBuffer x.recvEvent.ops) : Receives x'.recvBuffer x'.recvEvent.ops := by
  cases h <;> exact hb

theorem LockStep.receives {s₁ : ServiceState Tid K} (h : LockStep s t a act task s₁ x task')
    (hb : Receives (s.session a).recvBuffer (s.session a).recvEvent.ops) : Receives x.recvBuffer x.recvEvent.ops := by
  cases h <;> exact hb

end receives

/-! ## The sending sides -/

variable [DecidableEq Tid]

/-- **What every step does** to the sending sides and to the receive buffers. -/
structure Sends (s s' : ServiceState Tid K) : Prop where
  effect : ∀ b, SendEffect (s.session b).send (s'.session b).send
  linked : Linked s'
  sized : ∀ b, Receives (s'.session b).recvBuffer (s'.session b).recvEvent.ops

/-- What it needs for that. -/
structure Ready (s : ServiceState Tid K) : Prop where
  linked : Linked s
  sized : ∀ b, Receives (s.session b).recvBuffer (s.session b).recvEvent.ops
  fresh : (s.session s.numSessions).send = unopened

/-! ## Outside the sending code -/

theorem TaskStep.effect {type : ServiceType} {junk : Nat → BYTE} {answer : Answer} {x' : Session Tid Buf}
    (h : TaskStep type junk answer a x task x' task') :
    SendEffect x.send x'.send ∧ x'.send.pcs = x.send.pcs := by
  rcases h.send with hsend | hsend
  · exact ⟨.same hsend, by rw [hsend]⟩
  · exact ⟨.opened hsend, by rw [hsend]⟩

/-- A thread goes on outside the sending code, and one session may have been opened or closed. -/
theorem Sends.of_worker (h : Ready s) (hw : s'.workers = update s.workers t w)
    (hsending : w.sending = (s.workers t).sending) (hs : s'.session = update s.session a x)
    (hx : SendEffect (s.session a).send x.send) (hpcs : x.send.pcs = (s.session a).send.pcs)
    (hb : Receives x.recvBuffer x.recvEvent.ops) : Sends s s' := by
  refine ⟨?_, fun u b => ?_, ?_⟩
  · rw [hs, forall_update_iff s.session (p := fun b x => SendEffect (s.session b).send x.send)]
    exact ⟨hx, fun b _ => .same rfl⟩
  · rw [hw, hs, apply_update_of_eq ServiceWorker.sending s.workers hsending u,
      apply_update_of_eq (fun x : Session Tid Buf => x.send.pcs) s.session hpcs b]
    exact h.linked u b
  · rw [hs, forall_update_iff s.session (p := fun _ x => Receives x.recvBuffer x.recvEvent.ops)]
    exact ⟨hb, fun b _ => h.sized b⟩

/-- No session has changed. -/
theorem Sends.stay (h : Ready s) (hw : s'.workers = update s.workers t w)
    (hsending : w.sending = (s.workers t).sending) (hs : s'.session = s.session) : Sends s s' :=
  .of_worker (a := 0) (x := s.session 0) h hw hsending (hs.trans (update_eq_self 0 s.session).symm) (.same rfl) rfl
    (h.sized 0)

/-! ## The steps of the sending code -/

/-- **Thread `t` takes a step in the sending code of session `a`**, where it was or which it enters. -/
theorem Sends.setSend (h : Ready s) {act : SendAct Tid Buf} {send : SendState Tid Buf}
    (he : sendStep (s.session a).send act = some send)
    (hothers : ∀ u, u ≠ t → send.pcs u = (s.session a).send.pcs u)
    (hsending : ∀ b, (s.workers t).sending = some b → b = a) : Sends s (s.setSend t a task send) := by
  have hself : ((s.setSend t a task send).workers t).sending = if (send.pcs t).isIdle = true then none else some a := by
    simp only [ServiceState.setSend, setWorker, update_self]
  have hworkers : ∀ u, u ≠ t → (s.setSend t a task send).workers u = s.workers u := fun u hu => by
    simp only [ServiceState.setSend, setWorker, setSession, update_of_ne hu]
  have hsend : ((s.setSend t a task send).session a).send = send := by
    simp only [ServiceState.setSend, setWorker, setSession, update_self]
  have hsession : ∀ b, b ≠ a → (s.setSend t a task send).session b = s.session b := fun b hb => by
    simp only [ServiceState.setSend, setWorker, setSession, update_of_ne hb]
  refine ⟨fun b => ?_, fun u b => ?_, fun b => ?_⟩
  · by_cases hb : b = a
    · subst hb
      rw [hsend]
      exact .step act he
    · rw [hsession b hb]
      exact .same rfl
  · by_cases hu : u = t
    · subst hu
      rw [hself]
      by_cases hb : b = a
      · subst hb
        rw [hsend]
        cases send.pcs u <;> simp [SendPc.isIdle]
      · rw [hsession b hb]
        have hidle : (s.session b).send.pcs u = .idle := by
          by_contra hne
          exact hb (hsending b ((h.linked u b).2 hne))
        simp only [hidle, ne_eq, not_true, iff_false]
        split
        · exact fun hn => by cases hn
        · exact fun hn => hb (Option.some.inj hn).symm
    · rw [hworkers u hu]
      by_cases hb : b = a
      · subst hb
        rw [hsend, hothers u hu]
        exact h.linked u b
      · rw [hsession b hb]
        exact h.linked u b
  · by_cases hb : b = a
    · subst hb
      simpa only [ServiceState.setSend, setWorker, setSession, update_self] using h.sized b
    · rw [hsession b hb]
      exact h.sized b

/-! ## Every step -/

theorem Sends.dispatch (h : Sends s s') (owner : Bool) : Sends s (s'.dispatch owner) := by
  unfold ServiceState.dispatch
  split
  · exact h
  · exact ⟨h.effect, h.linked, h.sized⟩

/-- **The step lemma.** -/
theorem step_sends [Fintype Tid] (h : Ready s) {type : ServiceType} {junk : Nat → BYTE} {act : ServiceAct Tid Buf}
    (he : serviceStep type junk s act = some s') : Sends s s' := by
  cases serviceStep_effect he with
  | @task t answer a x task task' hw hstep =>
    exact .of_worker h rfl (by rw [hw]) rfl hstep.effect.1 hstep.effect.2 (hstep.receives (h.sized a))
  | @lock t act a s₁ x task task' hw hstep =>
    obtain ⟨hsession, hworkers, -, -⟩ := hstep.same
    exact .of_worker h hworkers (by rw [hw]) hsession (.same hstep.send) (congrArg SendState.pcs hstep.send)
      (hstep.receives (h.sized a))
  | goOn hw _ _ => exact .stay h rfl (by rw [hw]) rfl
  | @ret t answer a inside after note prog contents hw _ _ =>
    exact .of_worker h rfl (by rw [hw]) rfl (.same rfl) rfl (h.sized a)
  | @callSend t act b sendBuffer contents task task' send hw _ hsend =>
    have hset : Sends s (s.setSend t b task' send) :=
      .setSend h hsend (sendStep_send hsend).2.2.2 (fun c hc => by rw [hw] at hc; cases hc)
    exact ⟨hset.effect, hset.linked, hset.sized⟩
  | sending _ hsending hsend =>
    refine .setSend h hsend (sendStep_next hsend).2.2 (fun b hb => ?_)
    rw [hsending] at hb
    exact (Option.some.inj hb).symm
  | @hangUp t act a task task' hw _ _ =>
    exact .of_worker h rfl (by rw [hw]) rfl (.step .disconnect rfl) rfl (h.sized a)
  | hungUp hw _ _ => exact .stay h rfl (by rw [hw]) rfl
  | @close t answer a pc x pc' _ hstep =>
    exact .of_worker h rfl rfl rfl (.same hstep.send) (congrArg SendState.pcs hstep.send) (hstep.receives (h.sized a))
  | create hw _ =>
    exact .of_worker h rfl (by rw [hw]) rfl (.same h.fresh.symm) (congrArg SendState.pcs h.fresh.symm) receives_new
  | startAccept hw _ => exact .stay h rfl (by rw [hw]) rfl
  | @take t completion error a x task' owner hw _ hd =>
    refine Sends.dispatch ?_ owner
    exact .of_worker h rfl (by rw [hw]) rfl (.same hd.send) (congrArg SendState.pcs hd.send) (hd.receives (h.sized a))
  | takeSend hw _ hsend =>
    exact Sends.dispatch (.setSend h hsend (sendStep_complete hsend).2.2.2 (fun b hb => by rw [hw] at hb; cases hb)) _
  | releaseFails _ _ _ => exact ⟨fun b => .same rfl, h.linked, h.sized⟩
  | @destroy a _ _ _ =>
    refine ⟨fun b => .same ?_, fun u b => ?_, fun b => ?_⟩
    · exact apply_update_of_eq (fun x : Session Tid Buf => x.send) s.session (by rfl) b
    · show _ ↔ ((update s.session a { s.session a with destroyed := true }) b).send.pcs u ≠ .idle
      rw [apply_update_of_eq (fun x : Session Tid Buf => x.send) s.session (by rfl) b]
      exact h.linked u b
    · show Receives ((update s.session a { s.session a with destroyed := true }) b).recvBuffer
        ((update s.session a { s.session a with destroyed := true }) b).recvEvent.ops
      rw [apply_update_of_eq (fun x : Session Tid Buf => x.recvBuffer) s.session (by rfl) b,
        apply_update_of_eq (fun x : Session Tid Buf => x.recvEvent) s.session (by rfl) b]
      exact h.sized b

end ServiceState

/-! ## From `ProcessConnect` on -/

section

variable [DecidableEq Tid] {x x' : SendState Tid Buf} {act : SendAct Tid Buf}

/-- **Before `ProcessConnect` the sending code does nothing.** -/
theorem sendStep_unopened (he : sendStep unopened act = some x') : x' = unopened := by
  cases act with
  | next t answer => cases he
  | disconnect =>
    cases he
    rfl
  | send t b =>
    cases he
    rfl
  | complete t i n => cases he

end

theorem put_adding : ∀ r : LifeRule, .connected ∉ r.rule.put ∧
    total r.rule.put.count [.adding, .added] = total r.rule.take.count [.adding, .added] ∨
      r = .open false ∨ r = .open true :=
  LifeRule.forall_of_all (by decide)

/-- **`_connected` is set where the session comes to be added**, and that is once. -/
theorem Life.opened_fire {m m' : Place → Nat} {r : LifeRule} (h : Life m) (hf : r.rule.Fires m m') :
    m' .connected ≤ m .connected ∧ m' .adding + m' .added = m .adding + m .added ∨
      m' .connected = m .connected + 1 ∧ m .adding + m .added = 0 ∧ 0 < m' .adding + m' .added := by
  have honce := h.facts.entering_le
  have hadding := hf.moved .adding
  have hconnected := hf.moved .connected
  rcases put_adding r with ⟨hput, hsame⟩ | rfl | rfl
  · have htotal := hf.total [.adding, .added]
    simp only [total_cons, total_nil] at htotal hsame
    rw [List.count_eq_zero_of_not_mem hput] at hconnected
    exact .inl ⟨by omega, by omega⟩
  · have hopening := hf.pos (p := .opening false) (by decide)
    simp only [LifeRule.rule, List.count_cons_self, List.count_nil, List.count_cons_of_ne, ne_eq, reduceCtorEq,
      not_false_eq_true] at hadding hconnected
    exact .inr ⟨by omega, by omega, by omega⟩
  · have hopening := hf.pos (p := .opening true) (by decide)
    simp only [LifeRule.rule, List.count_cons_self, List.count_nil, List.count_cons_of_ne, ne_eq, reduceCtorEq,
      not_false_eq_true] at hadding hconnected
    exact .inr ⟨by omega, by omega, by omega⟩

variable [Fintype Tid] [DecidableEq Tid] {type : ServiceType} {junk : Nat → BYTE} {s s' : ServiceState Tid K}

/-- **The invariant of the sending sides.** -/
structure SendsInv (s : ServiceState Tid K) : Prop where
  linked : s.Linked
  sized : ∀ a, Receives (s.session a).recvBuffer (s.session a).recvEvent.ops
  before : ∀ a, s.marking a .adding + s.marking a .added = 0 → (s.session a).send = unopened
  after : ∀ a, 0 < s.marking a .adding + s.marking a .added → Reach sendStep Any sendState₀ (s.session a).send

theorem sendsInv_start (K : Contents Buf) (contents : K.State) :
    SendsInv (serviceState₀ K contents : ServiceState Tid K) where
  linked t a := ⟨fun h => (by cases h), fun h => absurd rfl h⟩
  sized _ := receives_new
  before _ _ := rfl
  after a h := by
    rw [marking_start] at h
    cases h

theorem SendsInv.ready (h : SendsInv s) (hL : ∀ a, Life (s.marking a)) : s.Ready := by
  refine ⟨h.linked, h.sized, h.before _ ?_⟩
  have hblank := (hL s.numSessions).blank (by
    rw [ServiceState.marking_flag _ _ rfl]
    simp [Session.part])
  rw [hblank, hblank]

/-- **Every step keeps it.** -/
theorem SendsInv.step (h : SendsInv s) (hinv : ServiceInv s) {act : ServiceAct Tid Buf}
    (he : serviceStep type junk s act = some s') : SendsInv s' := by
  obtain ⟨heffect, hlinked, hsized⟩ := ServiceState.step_sends (h.ready hinv.life) he
  obtain ⟨b, -, r, hm, -⟩ := hinv.moves he
  have hopened : ∀ a, s'.marking a .connected ≤ s.marking a .connected ∧
        s'.marking a .adding + s'.marking a .added = s.marking a .adding + s.marking a .added ∨
      s'.marking a .connected = s.marking a .connected + 1 ∧ s.marking a .adding + s.marking a .added = 0 ∧
        0 < s'.marking a .adding + s'.marking a .added := fun a => by
    by_cases hab : a = b
    · rw [hab]
      exact (hinv.life b).opened_fire hm.fires
    · rw [hm.others a hab]
      exact .inl ⟨Nat.le_refl _, rfl⟩
  simp only [ServiceState.marking_connected] at hopened
  refine ⟨hlinked, hsized, fun a h0 => ?_, fun a hpos => ?_⟩
  · -- nothing has happened yet
    rcases hopened a with ⟨hle, hsame⟩ | ⟨-, -, hpos⟩
    · have hbefore := h.before a (hsame ▸ h0)
      cases heffect a with
      | same heq => rw [heq, hbefore]
      | step act hstep => exact sendStep_unopened (hbefore ▸ hstep)
      | opened heq =>
        rw [heq, hbefore] at hle
        cases hle
    · omega
  · rcases hopened a with ⟨hle, hsame⟩ | ⟨hrise, h0, -⟩
    · have hafter := h.after a (hsame ▸ hpos)
      cases heffect a with
      | same heq => rwa [heq]
      | step act hstep => exact hafter.next hstep trivial
      | opened heq =>
        -- it was connected before
        have hc : (s.session a).send.connected = true := by
          rw [heq] at hle
          exact eq_true_of_toNat_pos (Nat.lt_of_lt_of_le Nat.one_pos hle)
        rw [heq, ← hc]
        exact hafter
    · have hbefore := h.before a h0
      have hc : (s'.session a).send ≠ unopened := fun hn => by
        rw [hn] at hrise
        exact absurd hrise (Nat.succ_ne_zero _).symm
      cases heffect a with
      | same heq => exact absurd (heq.trans hbefore) hc
      | step act hstep => exact absurd (sendStep_unopened (hbefore ▸ hstep)) hc
      | opened heq =>
        rw [heq, hbefore]
        exact .start

theorem sendsInv_of_reach {ok : ServiceState Tid K → ServiceAct Tid Buf → ServiceState Tid K → Prop}
    {contents : K.State} (hs : Reach (serviceStep type junk) ok (serviceState₀ K contents) s) : SendsInv s :=
  hs.inv (P := fun s : ServiceState Tid K => SendsInv s) (sendsInv_start K contents)
    (fun _ _ _ hr h he _ => h.step (ServiceReach.inv hr) he)

/-- **What holds of every run of the send path, and before `ProcessConnect`, holds of every session.** -/
theorem SendsInv.send (h : SendsInv s) {P : SendState Tid Buf → Prop} (hbefore : P unopened)
    (hafter : ∀ x, Reach sendStep Any sendState₀ x → P x) (a : Nat) : P (s.session a).send := by
  by_cases h0 : s.marking a .adding + s.marking a .added = 0
  · rw [h.before a h0]
    exact hbefore
  · exact hafter _ (h.after a (Nat.pos_of_ne_zero h0))

/-- **Every session of every service sends as SendPath says**: until `ProcessConnect` sets `_connected` nothing has been
sent, and after that the sending side is in a state of a run of the send path.  So its sends are posted in the order of
the pushes, and a thread is in the sending code of one session at a time. -/
theorem session_sends_refine {ok : ServiceState Tid K → ServiceAct Tid Buf → ServiceState Tid K → Prop}
    {contents : K.State} (hs : Reach (serviceStep type junk) ok (serviceState₀ K contents) s) (a : Nat) :
    ((s.session a).send = unopened ∧ (s.session a).history.added = 0 ∨
      Reach sendStep Any sendState₀ (s.session a).send) ∧
    (s.session a).send.posted.flatten.Sublist (s.session a).send.pushed ∧
    ∀ t b, (s.session a).send.pcs t ≠ .idle → (s.session b).send.pcs t ≠ .idle → b = a := by
  have hsends := sendsInv_of_reach hs
  have hadded := ServiceState.marking_added s a
  refine ⟨?_, ?_, fun t b ha hb => ?_⟩
  · by_cases h0 : s.marking a .adding + s.marking a .added = 0
    · exact .inl ⟨hsends.before a h0, by omega⟩
    · exact .inr (hsends.after a (Nat.pos_of_ne_zero h0))
  · by_cases h0 : s.marking a .adding + s.marking a .added = 0
    · rw [hsends.before a h0]
      exact .slnil
    · exact posted_sublist (hsends.after a (Nat.pos_of_ne_zero h0))
  · have h1 := (hsends.linked t a).2 ha
    have h2 := (hsends.linked t b).2 hb
    rw [h1] at h2
    exact (Option.some.inj h2).symm

/-- A session is connected, and both threads send. -/
def connectedSends : List (ServiceAct Two Nat) :=
  connectsWith none .success ++ [.send .one 0 7, .send .two 0 8] ++ List.replicate 4 (.next .one .success) ++
    [.next .two .success]

theorem session_sends_refine_two : ∃ s : ServiceState Two (Session.contents Nat),
    run (serviceStep .Client (fun _ => 0)) Any (serviceState₀ (Session.contents Nat) ()) connectedSends = some s ∧
    (s.session 0).send.pushed = [7, 8] ∧ (s.session 0).send.posted = [[7]] ∧
    Reach sendStep Any sendState₀ (s.session 0).send := by
  obtain ⟨s, hrun, hr⟩ := reach_of_run (serviceStep .Client (fun _ => 0)) Any
    (serviceState₀ (Session.contents Nat) () : ServiceState Two _) connectedSends (by decide)
  have hend : (run (serviceStep .Client (fun _ => 0)) Any (serviceState₀ (Session.contents Nat) () : ServiceState Two _)
      connectedSends).map (fun s => ((s.session 0).send.pushed, (s.session 0).send.posted)) = some ([7, 8], [[7]]) := by
    decide
  rw [hrun, Option.map_some, Option.some.injEq, Prod.mk.injEq] at hend
  obtain ⟨hpushed, hposted⟩ := hend
  refine ⟨s, hrun, hpushed, hposted, (session_sends_refine hr 0).1.resolve_left (fun hn => ?_)⟩
  rw [hn.1] at hpushed
  cases hpushed

end Geon
