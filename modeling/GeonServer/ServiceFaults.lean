import GeonServer.ServiceRun
/-!
# ServiceFaults — what an error of the system does to a session

Three kinds of errors are not followed up: a `DisconnectEx` that fails at once leaves the session in the set for good,
a `WSARecv` that fails with a code `HandleError` does not know leaves it connected and without a receive, and a
connect completion that has failed is dispatched like one that has succeeded.  Without the error each of these cannot
happen.
-/
namespace Geon

open Net Lts Function

variable {Tid Buf : Type} {K : Contents Buf} [Fintype Tid] [DecidableEq Tid] {type : ServiceType} {junk : Nat → BYTE}
  {s s' : ServiceState Tid K} {act : ServiceAct Tid Buf}

/-- **What every allowed move of one session keeps holds in every run.** -/
theorem ServiceReach.life_inv {ok : ServiceState Tid K → ServiceAct Tid Buf → ServiceState Tid K → Prop}
    {contents : K.State} {P : (Place → Nat) → Prop}
    (hs : Reach (serviceStep type junk) ok (serviceState₀ K contents) s) (h0 : P (fun _ => 0))
    (hstep : ∀ s act s' a r, ServiceInv s → P (s.marking a) → ok s act s' → ServiceState.Moved s s' a r →
      r.Cause s act a → P (s'.marking a)) : ∀ a, P (s.marking a) := by
  refine hs.inv (P := fun s : ServiceState Tid K => ∀ a, P (s.marking a)) (fun a => ?_) (fun s act s' hr h he hok => ?_)
  · rw [marking_start]
    exact h0
  · have hinv := ServiceReach.inv hr
    obtain ⟨a, -, r, hm, hcause⟩ := hinv.moves he
    exact forall_of_moves h hm (hstep s act s' a r hinv (h a) hok hm hcause)

/-! ## `DisconnectEx` fails -/

def NoDisconnectFails (s : ServiceState Tid K) (act : ServiceAct Tid Buf) (_ : ServiceState Tid K) : Prop :=
  match act with
  | .next t answer => (s.workers t).closing.map Prod.snd = some .post → answer.wsa.failed = none
  | _ => True

instance (s : ServiceState Tid K) (act : ServiceAct Tid Buf) (s' : ServiceState Tid K) :
    Decidable (NoDisconnectFails s act s') :=
  match act with
  | .next _ _ => inferInstanceAs (Decidable (_ → _))
  | .startAccept _ | .connect _ | .dequeue _ _ _ | .send _ _ _ | .disconnect _ _ | .broadcast _ _ _ | .destroy _ =>
    .isTrue trivial

theorem put_lost : ∀ r : LifeRule, (.closeReset ∈ r.rule.put → r = .closeFail) ∧
    (.lost ∈ r.rule.put → .closeReset ∈ r.rule.take) := LifeRule.forall_of_all (by decide)

theorem lost_eq_zero {contents : K.State}
    (hs : Reach (serviceStep type junk) NoDisconnectFails (serviceState₀ K contents) s) (a : Nat) :
    s.marking a .closeReset = 0 ∧ s.marking a .lost = 0 := by
  refine ServiceReach.life_inv (P := fun m => m .closeReset = 0 ∧ m .lost = 0) hs ⟨rfl, rfl⟩ ?_ a
  intro s act s' a r hinv h hok hm hcause
  have hreset := hm.fires.moved .closeReset
  have hlost := hm.fires.moved .lost
  rw [List.count_eq_zero_of_not_mem (a := Place.closeReset) (l := r.rule.put) (fun hp => ?_)] at hreset
  · rw [List.count_eq_zero_of_not_mem (a := Place.lost) (l := r.rule.put) (fun hp => ?_)] at hlost
    · omega
    · have := hm.fires.pos ((put_lost r).2 hp)
      omega
  · obtain rfl := (put_lost r).1 hp
    obtain ⟨t, answer, rfl, hc, hf⟩ := hcause
    exact hf (hok (by rw [hc]; rfl))

/-- The thread is inside `Disconnect` or `ProcessDisconnect` for session `a`. -/
def ServiceWorker.disconnecting {Prog : Type} (w : ServiceWorker Prog Buf) (a : Nat) : Prop :=
  (∃ pc, w.closing = some (a, pc)) ∨ ∃ pc, w.task = .processDisconnect a pc

/-- The session's disconnect is under way. -/
def ServiceState.disconnectPending (s : ServiceState Tid K) (a : Nat) : Prop :=
  (s.session a).disconnectEvent.ops ≠ [] ∨ ∃ t, (s.workers t).disconnecting a

omit [Fintype Tid] [DecidableEq Tid] in
theorem disconnecting_of_mem {Prog : Type} {w : ServiceWorker Prog Buf} {a : Nat} {p : Place} (h : (a, p) ∈ w.marks)
    (hp : p ∈ [Place.closing, .closePosting, .closeReset, .partClearing, .parting, .releasing]) : w.disconnecting a := by
  rcases w with ⟨task, sending, closing⟩
  simp only [ServiceWorker.marks, List.mem_append, Option.mem_toList, Option.map_eq_some_iff, Prod.mk.injEq] at h
  rcases h with h | ⟨_, _, _, rfl⟩ | ⟨⟨_, pc⟩, h, rfl, _⟩
  · refine .inr ?_
    unfold Task.place at h
    split at h <;> simp only [reduceCtorEq, Option.some.injEq, Prod.mk.injEq] at h <;> obtain ⟨rfl, rfl⟩ := h <;>
      first | exact ⟨_, rfl⟩ | simp at hp
  · exact absurd hp (by decide)
  · exact .inl ⟨pc, h⟩

omit [DecidableEq Tid] in
theorem marking_of_not_pending {a : Nat} (h : ¬ s.disconnectPending a) : s.marking a .disconnectOp = 0 ∧
    ∀ p ∈ [Place.closing, .closePosting, .closeReset, .partClearing, .parting, .releasing], s.marking a p = 0 := by
  simp only [ServiceState.disconnectPending, not_or, not_exists, ne_eq, not_not] at h
  refine ⟨?_, fun p hp => ServiceState.marking_eq_zero ?_ (fun t ht => h.2 t (disconnecting_of_mem ht hp))⟩
  · rw [ServiceState.marking_flag _ _ rfl]
    simp [Session.part, h.1]
  · revert p
    decide

omit [DecidableEq Tid] in
/-- A session that is disconnected with nothing under way has been released, unless a `DisconnectEx` was lost. -/
theorem released_of_not_pending {a : Nat} (hL : Life (s.marking a)) (hlost : s.marking a .lost = 0)
    (hc : (s.session a).send.connected = false) (hadded : 0 < (s.session a).history.added)
    (hp : ¬ s.disconnectPending a) :
    (s.session a).history.parted = 1 ∧ (s.session a).history.released = 1 ∧ a ∉ s.sessions := by
  obtain ⟨hop, hcode⟩ := marking_of_not_pending hp
  have hfacts := hL.facts
  have h1 := hcode .closing (by decide)
  have h2 := hcode .closePosting (by decide)
  have h3 := hcode .closeReset (by decide)
  have h4 := hcode .partClearing (by decide)
  have h5 := hcode .parting (by decide)
  have h6 := hcode .releasing (by decide)
  have honce := hfacts.entering_le
  have hlife := hfacts.life
  have hparted := hfacts.parted
  have hreleased := hfacts.released
  have hmember := hfacts.member
  have e1 : s.marking a .parted = (s.session a).history.parted := ServiceState.marking_flag s a rfl
  have e2 : s.marking a .released = (s.session a).history.released := ServiceState.marking_flag s a rfl
  rw [ServiceState.marking_added] at honce hlife hmember
  rw [ServiceState.marking_connected, hc, Bool.toNat_false] at hlife
  refine ⟨by omega, by omega, fun hmem => ?_⟩
  rw [ServiceState.marking_member, decide_eq_true hmem, Bool.toNat_true] at hmember
  omega

/-- **No session leaks** when no `DisconnectEx` fails at once: once it is disconnected and nothing is pending,
`OnDisconnected` has run and the session is out of the set. -/
theorem no_session_leaks {contents : K.State}
    (hs : Reach (serviceStep type junk) NoDisconnectFails (serviceState₀ K contents) s) (a : Nat)
    (hc : (s.session a).send.connected = false) :
    (a ∈ s.sessions → s.disconnectPending a) ∧ (0 < (s.session a).history.added → s.disconnectPending a ∨
      (s.session a).history.parted = 1 ∧ (s.session a).history.released = 1) := by
  have hinv := ServiceReach.inv hs
  have hlost := (lost_eq_zero hs a).2
  refine ⟨fun hmem => ?_, fun hadded => ?_⟩
  · by_contra hp
    have hadded := (ServiceState.known_of_member hinv.life hmem).1
    rw [ServiceState.marking_added] at hadded
    exact (released_of_not_pending (hinv.life a) hlost hc hadded hp).2.2 hmem
  · by_cases hp : s.disconnectPending a
    · exact .inl hp
    · obtain ⟨h1, h2, -⟩ := released_of_not_pending (hinv.life a) hlost hc hadded hp
      exact .inr ⟨h1, h2⟩

/-! ## `WSARecv` fails -/

/-- The thread is about to call `HandleError` for a receive of this session, with this code. -/
def ServiceWorker.recvError {Prog : Type} (w : ServiceWorker Prog Buf) : Option (Nat × Nat) :=
  match w with
  | ⟨.registerRecv a _ (.error errCode), none, none⟩ => some (a, errCode)
  | _ => none

/-- The receives that fail at once while the session is connected fail with a code that `HandleError` knows. -/
def RecvErrorsKnown (s : ServiceState Tid K) (act : ServiceAct Tid Buf) (_ : ServiceState Tid K) : Prop :=
  match act with
  | .next t _ => ∀ e ∈ (s.workers t).recvError, (s.session e.1).send.connected = true → handleError e.2 ≠ none
  | _ => True

instance (s : ServiceState Tid K) (act : ServiceAct Tid Buf) (s' : ServiceState Tid K) :
    Decidable (RecvErrorsKnown s act s') :=
  match act with
  | .next _ _ => inferInstanceAs (Decidable (∀ _ ∈ _, _ → _))
  | .startAccept _ | .connect _ | .dequeue _ _ _ | .send _ _ _ | .disconnect _ _ | .broadcast _ _ _ | .destroy _ =>
    .isTrue trivial

/-- The places from which a session comes to its next receive, or to a disconnect. -/
def hearing : List Place :=
  [.adding, .greeting, .arming, .recvPosting, .recvFailed, .recvOp, .recvClearing false, .recvClearing true,
    .recvChecking false, .recvChecking true, .receiving]

def hearLaw : Law Place := ⟨[.connected], hearing⟩

/-- A rule that ends the receives. -/
def LifeRule.deafens : LifeRule → Bool
  | .recvSkip | .recvQuiet | .recvLog | .checkEnd _ | .loopEnd => true
  | _ => false

theorem keeps_hearLaw : ∀ r : LifeRule, r.deafens = false → hearLaw.Keeps r.rule := LifeRule.forall_of_all (by decide)

theorem deafens_connected : ∀ r : LifeRule, r.deafens = true → .connected ∉ r.rule.put :=
  LifeRule.forall_of_all (by decide)

/-- **While every known error disconnects, a connected session comes to its next receive.** -/
theorem hears {contents : K.State}
    (hs : Reach (serviceStep type junk) RecvErrorsKnown (serviceState₀ K contents) s) (a : Nat) :
    hearLaw.Holds (s.marking a) := by
  refine ServiceReach.life_inv (P := hearLaw.Holds) hs (Nat.le_refl _) ?_ a
  intro s act s' a r hinv h hok hm hcause
  cases hd : r.deafens with
  | false => exact h.fire hm.fires (keeps_hearLaw r hd)
  | true =>
    -- the receives end where the code has seen that the session is disconnected
    have h0 : s.marking a .connected = 0 := by
      cases r with
      | recvSkip | recvQuiet | checkEnd | loopEnd => exact hm.guard
      | recvLog =>
        obtain ⟨t, answer, accepted, errCode, rfl, hw, hcode⟩ := hcause
        have hk := hok (a, errCode) (by rw [hw]; rfl)
        rw [ServiceState.marking_connected, Bool.toNat_eq_zero, ← Bool.not_eq_true]
        exact fun hconn => hk hconn hcode
      | _ => cases hd
    have hmoved := hm.fires.moved .connected
    rw [List.count_eq_zero_of_not_mem (deafens_connected r hd)] at hmoved
    show total (s'.marking a) [Place.connected] ≤ _
    simp only [total_cons, total_nil]
    omega

/-- The thread is inside `ProcessConnect`, `ProcessRecv` or `RegisterRecv` for session `a`. -/
def ServiceWorker.receiving {Prog : Type} (w : ServiceWorker Prog Buf) (a : Nat) : Prop :=
  (∃ accepted pc, w.task = .processConnect a accepted pc) ∨ (∃ accepted pc, w.task = .registerRecv a accepted pc) ∨
    ∃ pc, w.task = .processRecv a pc

omit [Fintype Tid] [DecidableEq Tid] in
theorem receiving_of_mem {Prog : Type} {w : ServiceWorker Prog Buf} {a : Nat} {p : Place} (h : (a, p) ∈ w.marks)
    (hp : p ∈ hearing) (hop : p ≠ .recvOp) : w.receiving a := by
  have htask : ∀ p ∈ hearing, p ≠ .recvOp → p.inTask = true := by decide
  rw [mem_marks_task (htask p hp hop)] at h
  unfold Task.place at h
  split at h <;> rename_i heq <;> simp only [reduceCtorEq, Option.some.injEq, Prod.mk.injEq] at h <;>
    obtain ⟨rfl, rfl⟩ := h <;>
    first
    | exact .inl ⟨_, _, heq⟩
    | exact .inr (.inl ⟨_, _, heq⟩)
    | exact .inr (.inr ⟨_, heq⟩)
    | exact absurd hp (by decide)

theorem recvOp_pos {contents : K.State}
    (hs : Reach (serviceStep type junk) RecvErrorsKnown (serviceState₀ K contents) s) (a : Nat)
    (hidle : ∀ t, ¬ (s.workers t).receiving a) (hc : (s.session a).send.connected = true) :
    0 < s.marking a .recvOp := by
  have hhears := hears hs a
  have hcode : ∀ p ∈ hearing, p ≠ .recvOp → p.inCode = true := by decide
  have hzero : ∀ p ∈ hearing, p ≠ .recvOp → s.marking a p = 0 := fun p hp hop =>
    ServiceState.marking_eq_zero (hcode p hp hop) (fun t ht => hidle t (receiving_of_mem ht hp hop))
  have e1 : s.marking a .connected = 1 := by rw [ServiceState.marking_connected, hc]; rfl
  simp only [Law.Holds, hearLaw, hearing, total_cons, total_nil] at hhears
  rw [hzero .adding (by decide) (by decide), hzero .greeting (by decide) (by decide),
    hzero .arming (by decide) (by decide), hzero .recvPosting (by decide) (by decide),
    hzero .recvFailed (by decide) (by decide), hzero (.recvClearing false) (by decide) (by decide),
    hzero (.recvClearing true) (by decide) (by decide), hzero (.recvChecking false) (by decide) (by decide),
    hzero (.recvChecking true) (by decide) (by decide), hzero .receiving (by decide) (by decide)] at hhears
  omega

/-- **A connected session has a receive in flight** when no thread is on the way to it, if `HandleError` knows the
codes with which receives fail. -/
theorem connected_hears {contents : K.State}
    (hs : Reach (serviceStep type junk) RecvErrorsKnown (serviceState₀ K contents) s) (a : Nat)
    (hidle : ∀ t, ¬ (s.workers t).receiving a) (hc : (s.session a).send.connected = true) :
    (s.session a).recvEvent.ops.length = 1 := by
  have hinv := ServiceReach.inv hs
  have hpos := recvOp_pos hs a hidle hc
  have hfacts := (hinv.life a).facts
  have honce := hfacts.entering_le
  have hgreeted := hfacts.greeted
  have hchain := hfacts.chain
  have e2 : s.marking a .recvOp = (s.session a).recvEvent.ops.length := ServiceState.marking_flag s a rfl
  omega

/-- A client connects, and this is what its first `WSARecv` answers. -/
def connectsWith (error : Option Nat) (wsaRecv : WsaResult) : List (ServiceAct Two Nat) :=
  [.connect .one, .next .one .success, .next .one .success, .dequeue .one (.connect 0) error] ++
    List.replicate 5 (.next .one .success) ++ [.next .one ⟨wsaRecv, true⟩]

theorem workers_of_isIdle {s : ServiceState Two K} (h1 : s.isIdle .one = true) (h2 : s.isIdle .two = true) (t : Two) :
    s.workers t = ⟨.idle, none, none⟩ := by
  cases t with
  | one => exact ServiceState.eq_of_isIdle h1
  | two => exact ServiceState.eq_of_isIdle h2

/-- **A receive that fails with `WSAENETRESET` leaves the session connected and deaf.** -/
theorem deaf_session : ∃ s : ServiceState Two (Session.contents Nat),
    Reach (serviceStep .Client (fun _ => 0)) Any (serviceState₀ (Session.contents Nat) ()) s ∧
    (∀ t, ¬ (s.workers t).receiving 0) ∧ (s.session 0).send.connected = true ∧ (s.session 0).recvEvent.ops = [] := by
  obtain ⟨s, hrun, hr⟩ := reach_of_run (serviceStep .Client (fun _ => 0)) Any
    (serviceState₀ (Session.contents Nat) () : ServiceState Two _)
    (connectsWith none (.socketError 10052) ++ [.next .one .success, .next .one .success]) (by decide)
  have hend : (run (serviceStep .Client (fun _ => 0)) Any (serviceState₀ (Session.contents Nat) () : ServiceState Two _)
      (connectsWith none (.socketError 10052) ++ [.next .one .success, .next .one .success])).map
      (fun s => (s.isIdle .one, s.isIdle .two, (s.session 0).send.connected, (s.session 0).recvEvent.ops)) =
      some (true, true, true, []) := by decide
  rw [hrun, Option.map_some, Option.some.injEq, Prod.mk.injEq, Prod.mk.injEq, Prod.mk.injEq] at hend
  obtain ⟨h1, h2, hc, hops⟩ := hend
  refine ⟨s, hr, fun t => ?_, hc, hops⟩
  rw [workers_of_isIdle h1 h2]
  rintro (⟨_, _, h⟩ | ⟨_, _, h⟩ | ⟨_, h⟩) <;> cases h

theorem connected_hears_one : ∃ s : ServiceState Two (Session.contents Nat),
    run (serviceStep .Client (fun _ => 0)) RecvErrorsKnown (serviceState₀ (Session.contents Nat) ())
      (connectsWith none .success) = some s ∧ (s.session 0).recvEvent.ops.length = 1 := by
  obtain ⟨s, hrun, hr⟩ := reach_of_run (serviceStep .Client (fun _ => 0)) RecvErrorsKnown
    (serviceState₀ (Session.contents Nat) () : ServiceState Two _) (connectsWith none .success) (by decide)
  have hend : (run (serviceStep .Client (fun _ => 0)) RecvErrorsKnown
      (serviceState₀ (Session.contents Nat) () : ServiceState Two _) (connectsWith none .success)).map
      (fun s => (s.isIdle .one, s.isIdle .two, (s.session 0).send.connected)) = some (true, true, true) := by decide
  rw [hrun, Option.map_some, Option.some.injEq, Prod.mk.injEq, Prod.mk.injEq] at hend
  obtain ⟨h1, h2, hc⟩ := hend
  refine ⟨s, hrun, connected_hears hr 0 (fun t => ?_) hc⟩
  rw [workers_of_isIdle h1 h2]
  rintro (⟨_, _, h⟩ | ⟨_, _, h⟩ | ⟨_, h⟩) <;> cases h

/-! ## `ConnectEx` fails -/

def ConnectsSucceed (_ : ServiceState Tid K) (act : ServiceAct Tid Buf) (_ : ServiceState Tid K) : Prop :=
  match act with
  | .dequeue _ (.connect _) error => error = none
  | _ => True

instance (s : ServiceState Tid K) (act : ServiceAct Tid Buf) (s' : ServiceState Tid K) :
    Decidable (ConnectsSucceed s act s') :=
  match act with
  | .dequeue _ (.connect _) _ => inferInstanceAs (Decidable (_ = _))
  | .dequeue _ (.disconnect _) _ | .dequeue _ (.accept _) _ | .dequeue _ (.recv _ _ _) _ | .dequeue _ (.send _ _ _) _
  | .startAccept _ | .connect _ | .next _ _ | .send _ _ _ | .disconnect _ _ | .broadcast _ _ _ | .destroy _ =>
    .isTrue trivial

theorem put_connectFailed : ∀ r : LifeRule, .connectFailed ∈ r.rule.put → r = .connectComplete true :=
  LifeRule.forall_of_all (by decide)

theorem connectFailed_eq_zero {contents : K.State}
    (hs : Reach (serviceStep type junk) ConnectsSucceed (serviceState₀ K contents) s) (a : Nat) :
    s.marking a .connectFailed = 0 := by
  refine ServiceReach.life_inv (P := fun m => m .connectFailed = 0) hs rfl ?_ a
  intro s act s' a r hinv h hok hm hcause
  have hmoved := hm.fires.moved .connectFailed
  rw [List.count_eq_zero_of_not_mem (a := Place.connectFailed) (l := r.rule.put) (fun hp => ?_)] at hmoved
  · omega
  · obtain rfl := put_connectFailed r hp
    obtain ⟨t, error, rfl, hfailed⟩ := hcause
    exact hfailed.1 rfl hok

/-- **A client session is added only when its `ConnectEx` has succeeded**, if no connect completion that has failed is
dequeued; one that has failed always adds the session. -/
theorem connects_only_on_success (type : ServiceType) (junk : Nat → BYTE) (contents : K.State) :
    (∀ s : ServiceState Tid K, Reach (serviceStep type junk) ConnectsSucceed (serviceState₀ K contents) s → ∀ a,
      (s.session a).history.accepted = 0 → (s.session a).history.connectOk = 0 →
      (s.session a).send.connected = false ∧ a ∉ s.sessions ∧ (s.session a).history.added = 0 ∧
      (s.session a).history.greeted = 0 ∧ (s.session a).recvEvent.ops = []) ∧
    ∀ s : ServiceState Tid K, Reach (serviceStep type junk) Any (serviceState₀ K contents) s → ∀ a,
      0 < (s.session a).history.connectFailed → (∀ t accepted pc, (s.workers t).task ≠ .processConnect a accepted pc) →
      (s.session a).history.added = 1 ∧ (s.session a).history.greeted = 1 := by
  refine ⟨fun s hs a haccepted hok => ?_, fun s hs a hfailed hout => ?_⟩
  · have hzero := connectFailed_eq_zero hs a
    have hfacts := ((ServiceReach.inv hs).life a).facts
    have hentered := hfacts.entered
    have hopened := hfacts.opened
    have hgreeted := hfacts.greeted
    have hchain := hfacts.chain
    have hlife := hfacts.life
    have hmember := hfacts.member
    have e1 : s.marking a .connectOk = (s.session a).history.connectOk := ServiceState.marking_flag s a rfl
    have e2 : s.marking a .accepted = (s.session a).history.accepted := ServiceState.marking_flag s a rfl
    have e3 : s.marking a .greeted = (s.session a).history.greeted := ServiceState.marking_flag s a rfl
    have e4 : s.marking a .recvOp = (s.session a).recvEvent.ops.length := ServiceState.marking_flag s a rfl
    have e5 := ServiceState.marking_added s a
    have e6 := ServiceState.marking_connected s a
    have e7 := ServiceState.marking_member s a
    refine ⟨Bool.toNat_eq_zero.1 (by omega), fun hmem => ?_, by omega, by omega, List.length_eq_zero_iff.1 (by omega)⟩
    rw [decide_eq_true hmem, Bool.toNat_true] at e7
    omega
  · have hfacts := ((ServiceReach.inv hs).life a).facts
    have hentered := hfacts.entered
    have hopened := hfacts.opened
    have hgreeted := hfacts.greeted
    have hborn := hfacts.born
    have hcreated := hfacts.created
    have hzero : ∀ p ∈ [Place.opening false, .opening true, .adding, .greeting], s.marking a p = 0 := fun p hp => by
      have htask : ∀ p ∈ [Place.opening false, .opening true, .adding, .greeting],
          p.inTask = true ∧ p.inCode = true := by decide
      refine ServiceState.marking_eq_zero (htask p hp).2 (fun t ht => ?_)
      rw [mem_marks_task (htask p hp).1] at ht
      unfold Task.place at ht
      split at ht <;> rename_i heq <;> simp only [reduceCtorEq, Option.some.injEq, Prod.mk.injEq] at ht <;>
        obtain ⟨rfl, rfl⟩ := ht <;> first | exact hout _ _ _ heq | simp at hp
    have h1 := hzero (.opening false) (by decide)
    have h2 := hzero (.opening true) (by decide)
    have h3 := hzero .adding (by decide)
    have h4 := hzero .greeting (by decide)
    have e1 : s.marking a .connectFailed = (s.session a).history.connectFailed := ServiceState.marking_flag s a rfl
    have e2 : s.marking a .greeted = (s.session a).history.greeted := ServiceState.marking_flag s a rfl
    have e3 := ServiceState.marking_added s a
    omega

/-- The peer refuses the connection: the completion of `ConnectEx` has failed with `ERROR_CONNECTION_REFUSED`, and so
does then the `WSARecv`, with `WSAENOTCONN`. -/
def refused : List (ServiceAct Two Nat) :=
  connectsWith (some 1225) (.socketError 10057) ++ [.next .one .success, .next .one .success]

/-- **A connection that was refused is connected, added and greeted all the same.** -/
theorem refused_session_added : ∃ s : ServiceState Two (Session.contents Nat),
    Reach (serviceStep .Client (fun _ => 0)) Any (serviceState₀ (Session.contents Nat) ()) s ∧
    (s.session 0).history.accepted = 0 ∧ (s.session 0).history.connectOk = 0 ∧ (s.session 0).send.connected = true ∧
    0 ∈ s.sessions ∧ (s.session 0).history.greeted = 1 := by
  obtain ⟨s, hrun, hr⟩ := reach_of_run (serviceStep .Client (fun _ => 0)) Any
    (serviceState₀ (Session.contents Nat) () : ServiceState Two _) refused (by decide)
  have hend : (run (serviceStep .Client (fun _ => 0)) Any (serviceState₀ (Session.contents Nat) () : ServiceState Two _)
      refused).map (fun s => ((s.session 0).history.accepted, (s.session 0).history.connectOk,
        (s.session 0).send.connected, decide (0 ∈ s.sessions), (s.session 0).history.greeted)) =
      some (0, 0, true, true, 1) := by decide
  rw [hrun, Option.map_some, Option.some.injEq, Prod.mk.injEq, Prod.mk.injEq, Prod.mk.injEq, Prod.mk.injEq] at hend
  obtain ⟨h1, h2, hc, hmem, h3⟩ := hend
  exact ⟨s, hr, h1, h2, hc, of_decide_eq_true hmem, h3⟩

theorem connects_only_on_success_two : ∃ s s' : ServiceState Two (Session.contents Nat),
    run (serviceStep .Client (fun _ => 0)) ConnectsSucceed (serviceState₀ (Session.contents Nat) ())
      [.connect .one, .next .one .success] = some s ∧ (s.session 0).history.added = 0 ∧
    run (serviceStep .Client (fun _ => 0)) Any (serviceState₀ (Session.contents Nat) ()) refused = some s' ∧
      (s'.session 0).history.added = 1 := by
  obtain ⟨s, hrun, hr⟩ := reach_of_run (serviceStep .Client (fun _ => 0)) ConnectsSucceed
    (serviceState₀ (Session.contents Nat) () : ServiceState Two _) [.connect .one, .next .one .success] (by decide)
  obtain ⟨s', hrun', hr'⟩ := reach_of_run (serviceStep .Client (fun _ => 0)) Any
    (serviceState₀ (Session.contents Nat) () : ServiceState Two _) refused (by decide)
  have hstart : (run (serviceStep .Client (fun _ => 0)) ConnectsSucceed
      (serviceState₀ (Session.contents Nat) () : ServiceState Two _) [.connect .one, .next .one .success]).map
      (fun s => ((s.session 0).history.accepted, (s.session 0).history.connectOk)) = some (0, 0) := by decide
  have hend : (run (serviceStep .Client (fun _ => 0)) Any (serviceState₀ (Session.contents Nat) () : ServiceState Two _)
      refused).map (fun s => (s.isIdle .one, s.isIdle .two, (s.session 0).history.connectFailed)) =
      some (true, true, 1) := by decide
  rw [hrun, Option.map_some, Option.some.injEq, Prod.mk.injEq] at hstart
  rw [hrun', Option.map_some, Option.some.injEq, Prod.mk.injEq, Prod.mk.injEq] at hend
  obtain ⟨hpart, hall⟩ := @connects_only_on_success Two _ (Session.contents Nat) _ _ .Client (fun _ => 0) ()
  refine ⟨s, s', hrun, (hpart s hr 0 hstart.1 hstart.2).2.2.1, hrun', (hall s' hr' 0 ?_ (fun t _ _ h => ?_)).1⟩
  · rw [hend.2.2]
    exact Nat.one_pos
  · rw [workers_of_isIdle hend.1 hend.2.1] at h
    cases h

end Geon
