import GeonServer.GameRun
import GeonServer.ServiceFaults
import GeonServer.WireRoundTrip
/-!
# GameOrder — `OnConnected` before `OnDisconnected`, and who is left in the manager

`AddSession` publishes a session before `OnConnected` is called, so another thread can disconnect it in between, and
then `Remove` may run before `Add`.  While every disconnect finds `OnConnected` returned, the callbacks come in order
and the manager has no session whose `OnDisconnected` has returned.  With no `DisconnectEx` failing as well, none is
left there after a disconnect.
-/
namespace Geon

open Net Lts Function

section order

variable {Tid Buf : Type} {K : Contents Buf} [Fintype Tid] [DecidableEq Tid] {type : ServiceType} {junk : Nat → BYTE}
  {s : ServiceState Tid K}

/-- The session whose `ProcessConnect` the thread is inside, up to the return of `OnConnected`. -/
def Task.opens {Prog : Type} : Task Prog Buf → Option Nat
  | .processConnect a _ _ => some a
  | _ => none

/-- A `Disconnect` that finds the session connected comes after its `OnConnected` has returned. -/
def GreetedFirst (s : ServiceState Tid K) (_ : ServiceAct Tid Buf) (s' : ServiceState Tid K) : Prop :=
  ∀ a < s.numSessions, (s.session a).send.connected = true → (s'.session a).send.connected = false →
    ∀ t, (s.workers t).task.opens ≠ some a

omit [DecidableEq Tid] in
instance (s : ServiceState Tid K) (act : ServiceAct Tid Buf) (s' : ServiceState Tid K) :
    Decidable (GreetedFirst s act s') :=
  inferInstanceAs (Decidable (∀ a < s.numSessions, _ → _ → ∀ t, (s.workers t).task.opens ≠ some a))

omit [Fintype Tid] [DecidableEq Tid] in
theorem opens_of_mem {Prog : Type} {w : ServiceWorker Prog Buf} {a : Nat} (h : (a, .greeting) ∈ w.marks) :
    w.task.opens = some a := by
  rw [mem_marks_task rfl] at h
  unfold Task.place at h
  split at h <;> rename_i htask <;>
    simp only [reduceCtorEq, Option.some.injEq, Prod.mk.injEq, and_false, and_true] at h
  rw [htask, h]
  rfl

/-- Only a rule that disconnects leads to the closings, and only `add` to `OnConnected`. -/
theorem put_closings : ∀ r : LifeRule, r.closes = false → total r.rule.put.count closings ≤ total r.rule.take.count closings :=
  LifeRule.forall_of_all (by decide)

theorem put_greeting : ∀ r : LifeRule, .greeting ∈ r.rule.put → r = .add := LifeRule.forall_of_all (by decide)

theorem closes_connected : ∀ r : LifeRule, r.closes = true → .connected ∉ r.rule.put := LifeRule.forall_of_all (by decide)

/-- **Nobody is in `OnConnected` of a session that has been disconnected.** -/
theorem not_greeting {contents : K.State}
    (hs : Reach (serviceStep type junk) GreetedFirst (serviceState₀ K contents) s) (a : Nat) :
    0 < total (s.marking a) closings → s.marking a .greeting = 0 := by
  refine ServiceReach.life_inv (P := fun m => 0 < total m closings → m .greeting = 0) hs (fun _ => rfl) ?_ a
  intro s act s' a r hinv h hok hm hcause hpos
  have hfacts := (hinv.life a).facts
  have honce := hfacts.entering_le
  have hlife := hfacts.life
  have hclosed := (hinv.life a).closed
  have hgreeting := hm.fires.moved .greeting
  have htotal := hm.fires.total closings
  cases hr : r.closes with
  | false =>
    have hput := put_closings r hr
    have h0 := h (by omega)
    by_cases hg : .greeting ∈ r.rule.put
    · -- the session is only just added, and nothing closes it before
      obtain rfl := put_greeting r hg
      have hadding := hm.fires.pos (p := .adding) List.mem_cons_self
      omega
    · rw [List.count_eq_zero_of_not_mem hg] at hgreeting
      omega
  | true =>
    have hconn : (s.session a).send.connected = true := by
      have := hm.fires.pos (closes_effect r hr).1
      rw [ServiceState.marking_connected] at this
      exact eq_true_of_toNat_pos this
    have hconn' : (s'.session a).send.connected = false := by
      have hmoved := hm.fires.moved .connected
      have htake := List.count_pos_iff.2 (closes_effect r hr).1
      rw [List.count_eq_zero_of_not_mem (closes_connected r hr), ServiceState.marking_connected,
        ServiceState.marking_connected, hconn, Bool.toNat_true] at hmoved
      exact Bool.toNat_eq_zero.1 (by omega)
    have hlt : a < s.numSessions := by
      have e1 := ServiceState.marking_connected s a
      rw [hconn, Bool.toNat_true] at e1
      have e2 : s.marking a .created = (decide (a < s.numSessions)).toNat := ServiceState.marking_flag s a rfl
      have := hfacts.created_of_connected (by omega)
      by_contra hn
      simp [e2, hn] at this
    have hzero : s.marking a .greeting = 0 :=
      ServiceState.marking_eq_zero rfl (fun t ht => hok a hlt hconn hconn' t (opens_of_mem ht))
    have hput : .greeting ∉ r.rule.put := fun hg => by
      rw [put_greeting r hg] at hr
      cases hr
    rw [List.count_eq_zero_of_not_mem hput] at hgreeting
    omega

/-- **`OnConnected` has returned before `OnDisconnected` starts.** -/
theorem greeted_of_parting {contents : K.State}
    (hs : Reach (serviceStep type junk) GreetedFirst (serviceState₀ K contents) s) {a : Nat} (hp : s.parting a) :
    (s.session a).history.greeted = 1 := by
  have hfacts := ((ServiceReach.inv hs).life a).facts
  have honce := hfacts.entering_le
  have hgreeted := hfacts.greeted
  have hclosed := hfacts.closed
  have hparted := hfacts.parted
  have hzero := not_greeting hs a
  have hpos := ServiceState.parting_iff.1 hp
  have e : s.marking a .greeted = (s.session a).history.greeted := ServiceState.marking_flag s a rfl
  simp only [closings, total_cons, total_nil] at hzero
  omega

end order

variable {Tid : Type} {pb : Protobuf} [Fintype Tid] [DecidableEq Tid] {type : ServiceType} {junk : Nat → BYTE}
  {s : ServiceState Tid (gameContents pb)}

omit [Fintype Tid] [DecidableEq Tid] in
/-- What `OnDisconnected` has done something of has started. -/
theorem Past.parting {a : Nat} {rest : List GameOp} (h : Past s a rest) : s.parting a := by
  rcases h with h | ⟨t, prog, hin, -⟩
  · exact .inl h
  · exact .inr ⟨t, parts_iff.2 (place_of_callback hin)⟩

/-- **After `Remove` a session is not in the manager**, when nothing is disconnected before `OnConnected` returns. -/
theorem not_in_manager (hs : Reach (serviceStep type junk) GreetedFirst
    (serviceState₀ (gameContents pb) gameState₀) s) (a : Nat) :
    Past s a [.leave, .clear] → a ∉ s.game.manager := by
  refine hs.inv (P := fun s : ServiceState Tid (gameContents pb) => Past s a [.leave, .clear] → a ∉ s.game.manager)
    (fun _ hm => by cases hm) (fun s act s' hr h he _ hpast => ?_)
  have hinv := ServiceReach.inv hr
  have hgame := GameReach.inv hr
  have hstep := gameStep_of_calls (ServiceState.serviceStep_calls hinv.life he)
  rcases past_of_step hpast hstep hgame List.suffix_rfl with hp | ⟨t, sent, -, hexec⟩
  · rcases hstep.game with hsame | ⟨t, c, b, op, ops, hin, -, heff⟩
    · rw [hsame]
      exact h hp
    · cases heff with
      | add _ hm =>
        rw [hm, Finset.mem_insert, not_or]
        refine ⟨fun hab => ?_, h hp⟩
        -- `Add` is a step of `OnConnected`, which has returned
        subst hab
        rcases (hgame.progs _ _ _ _ hin).head_mem with ⟨rfl, -⟩ | ⟨-, hop⟩ | ⟨-, hop⟩
        · have hpos := marking_of_callback hin
          have hzero := not_greeting hr a (by
            have hfacts := (hinv.life a).facts
            have hparted := hfacts.parted
            have := ServiceState.parting_iff.1 hp.parting
            simp only [closings, total_cons, total_nil]
            omega)
          simp only [Callback.place] at hpos
          omega
        · cases hop
        · exact absurd hop (by decide)
      | remove _ hm =>
        rw [hm]
        exact fun hmem => h hp (Finset.mem_of_mem_erase hmem)
      | stay _ _ _ hm | leave _ _ _ hm | skip _ _ hm | clear _ hm | newPlayer _ _ _ hm | select _ _ _ _ hm | enter _ _ _ hm
      | chat _ _ _ hm =>
        rw [hm]
        exact h hp
  · cases GameState.exec_effect hexec with
    | remove _ hm =>
      rw [hm]
      exact Finset.notMem_erase a _
    | stay _ hne => exact absurd (by simp) hne

/-- **The callbacks of a session come in order**, when each `Disconnect` that finds it connected comes after its
`OnConnected` has returned; then a session whose `OnDisconnected` has returned is not in the manager. -/
theorem callback_order (hs : Reach (serviceStep type junk) GreetedFirst
    (serviceState₀ (gameContents pb) gameState₀) s) (a : Nat) :
    (s.parting a → (s.session a).history.greeted = 1) ∧
      (0 < (s.session a).history.greeted → 0 < (s.session a).history.parted → a ∉ s.game.manager) :=
  ⟨greeted_of_parting hs, fun _ hp => not_in_manager hs a (.inl hp)⟩

/-- A session is accepted by thread one: `AcceptEx`, its completion, and `ProcessConnect` up to the call of
`OnConnected`. -/
def accepts : List (ServiceAct Two SendBufferRef) :=
  [.startAccept .one, .next .one .success, .next .one .success, .dequeue .one (.accept 0) none] ++
    List.replicate 4 (.next .one .success)

/-- Thread two calls `Send` of session 0, whose peer has reset the connection, and comes to `RegisterDisconnect`. -/
def sendFails (call : List (ServiceAct Two SendBufferRef)) : List (ServiceAct Two SendBufferRef) :=
  call ++ List.replicate 3 (.next .two .success) ++
    [.next .two ⟨.socketError WSAECONNRESET, true⟩, .next .two .success, .next .two .success]

/-- A server whose clients send a few packets. -/
abbrev gameServer₀ : ServiceState Two (gameContents somePackets) := serviceState₀ (gameContents somePackets) gameState₀

def gameRun (ok : ServiceState Two (gameContents somePackets) → ServiceAct Two SendBufferRef →
    ServiceState Two (gameContents somePackets) → Prop) [∀ s act s', Decidable (ok s act s')]
    (acts : List (ServiceAct Two SendBufferRef)) : Option (ServiceState Two (gameContents somePackets)) :=
  run (serviceStep .Server (fun _ => 0)) ok gameServer₀ acts

/-- While thread one is about to call `Add`, a broadcast of thread two disconnects the session, and thread two takes
the completion and goes through `OnDisconnected`. -/
def removedFirst : List (ServiceAct Two SendBufferRef) :=
  accepts ++ sendFails [.broadcast .two ⟨0, .S_ENTER_GAME ⟨true⟩⟩ [0], .next .two .success] ++
    List.replicate 3 (.next .two .success) ++ [.dequeue .two (.disconnect 0) none] ++
    List.replicate 7 (.next .two .success)

/-- **`Remove` runs before `Add`**: `OnDisconnected` returns before `OnConnected` does, and then the session is in the
manager for good. -/
theorem removed_before_added :
    (∃ s, Reach (serviceStep .Server (fun _ => 0)) Any gameServer₀ s ∧ s.parting 0 ∧
      (s.session 0).history.greeted = 0) ∧
    ∃ s, Reach (serviceStep .Server (fun _ => 0)) Any gameServer₀ s ∧ (s.session 0).history.greeted = 1 ∧
      (s.session 0).history.parted = 1 ∧ 0 ∈ s.game.manager := by
  constructor
  · obtain ⟨s, hrun, hr⟩ := reach_of_run (serviceStep .Server (fun _ => 0)) Any gameServer₀ removedFirst (by decide)
    have hend : (gameRun Any removedFirst).map (fun s => (decide (s.parting 0), (s.session 0).history.greeted)) =
        some (true, 0) := by decide
    rw [gameRun, hrun, Option.map_some, Option.some.injEq, Prod.mk.injEq] at hend
    exact ⟨s, hr, of_decide_eq_true hend.1, hend.2⟩
  · obtain ⟨s, hrun, hr⟩ := reach_of_run (serviceStep .Server (fun _ => 0)) Any gameServer₀
      (removedFirst ++ [.next .one .success, .next .one .success]) (by decide)
    have hend : (gameRun Any (removedFirst ++ [.next .one .success, .next .one .success])).map
        (fun s => ((s.session 0).history.greeted, (s.session 0).history.parted, decide (0 ∈ s.game.manager))) =
        some (1, 1, true) := by decide
    rw [gameRun, hrun, Option.map_some, Option.some.injEq, Prod.mk.injEq, Prod.mk.injEq] at hend
    exact ⟨s, hr, hend.1, hend.2.1, of_decide_eq_true hend.2.2⟩

/-- The session is greeted and waits for a receive, a `Send` of thread two fails, and thread two takes the completion of
the disconnect. -/
def disconnected : List (ServiceAct Two SendBufferRef) :=
  accepts ++ List.replicate 6 (.next .one .success) ++ sendFails [.send .two 0 ⟨0, .S_ENTER_GAME ⟨true⟩⟩] ++
    List.replicate 2 (.next .two .success) ++ [.dequeue .two (.disconnect 0) none] ++
    List.replicate 7 (.next .two .success)

theorem callback_order_two : ∃ s, gameRun GreetedFirst disconnected = some s ∧ (s.session 0).history.parted = 1 ∧
    (s.session 0).history.greeted = 1 ∧ 0 ∉ s.game.manager := by
  obtain ⟨s, hrun, hr⟩ := reach_of_run (serviceStep .Server (fun _ => 0)) GreetedFirst gameServer₀ disconnected (by decide)
  have hend : (gameRun GreetedFirst disconnected).map (fun s => (s.session 0).history.parted) = some 1 := by decide
  rw [gameRun, hrun, Option.map_some, Option.some.injEq] at hend
  obtain ⟨hgreeted, hmanager⟩ := callback_order hr 0
  have hg := hgreeted (.inl (by rw [hend]; exact Nat.one_pos))
  exact ⟨s, hrun, hend, hg, hmanager (by rw [hg]; exact Nat.one_pos) (by rw [hend]; exact Nat.one_pos)⟩

/-! ## After a disconnect -/

/-- Only a session that has been added is in the manager. -/
theorem added_of_manager {ok : ServiceState Tid (gameContents pb) → ServiceAct Tid SendBufferRef →
    ServiceState Tid (gameContents pb) → Prop} (hs : Reach (serviceStep type junk) ok
    (serviceState₀ (gameContents pb) gameState₀) s) (a : Nat) : a ∈ s.game.manager → 0 < s.marking a .added := by
  refine hs.inv (P := fun s : ServiceState Tid (gameContents pb) => a ∈ s.game.manager → 0 < s.marking a .added)
    (fun hm => by cases hm) (fun s act s' hr h he _ hmem => ?_)
  have hinv := ServiceReach.inv hr
  have hgame := GameReach.inv hr
  obtain ⟨b, -, r, hm, -⟩ := hinv.moves he
  suffices 0 < s.marking a .added by
    by_cases hab : a = b
    · subst hab
      have hmoved := hm.fires.moved .added
      rw [List.count_eq_zero_of_not_mem (take_added r)] at hmoved
      omega
    · rwa [hm.others a hab]
  rcases (gameStep_of_calls (ServiceState.serviceStep_calls hinv.life he)).game with hsame | ⟨t, c, d, op, ops, hin, -, heff⟩
  · exact h (hsame ▸ hmem)
  · cases heff with
    | add _ hmanager =>
      rw [hmanager, Finset.mem_insert] at hmem
      rcases hmem with rfl | hmem
      · rcases (hgame.progs _ _ _ _ hin).head_mem with ⟨rfl, -⟩ | ⟨-, hop⟩ | ⟨-, hop⟩
        · have hpos := marking_of_callback hin
          have hgreeted := (hinv.life a).facts.greeted
          simp only [Callback.place] at hpos
          omega
        · cases hop
        · exact absurd hop (by decide)
      · exact h hmem
    | remove _ hmanager => exact h (Finset.mem_of_mem_erase (hmanager ▸ hmem))
    | stay _ _ _ hmanager | leave _ _ _ hmanager | skip _ _ hmanager | clear _ hmanager | newPlayer _ _ _ hmanager
    | select _ _ _ _ hmanager | enter _ _ _ hmanager | chat _ _ _ hmanager => exact h (hmanager ▸ hmem)

/-- A session whose `DisconnectEx` has failed stays in the set, disconnected, and `OnDisconnected` never runs. -/
theorem member_of_lost {Buf : Type} {K : Contents Buf} {contents : K.State} {s : ServiceState Tid K}
    (hs : Reach (serviceStep type junk) Any (serviceState₀ K contents) s) {a : Nat}
    (hlost : 0 < (s.session a).history.lost) :
    a ∈ s.sessions ∧ (s.session a).send.connected = false ∧ (s.session a).history.parted = 0 := by
  have hfacts := ((ServiceReach.inv hs).life a).facts
  have honce := hfacts.entering_le
  have hlife := hfacts.life
  have hclosed := hfacts.closed
  have hparted := hfacts.parted
  have hreleased := hfacts.released
  have hmember := hfacts.member
  have e1 : s.marking a .lost = (s.session a).history.lost := ServiceState.marking_flag s a rfl
  have e2 : s.marking a .parted = (s.session a).history.parted := ServiceState.marking_flag s a rfl
  have e3 := ServiceState.marking_connected s a
  refine ⟨?_, Bool.toNat_eq_zero.1 (by omega), by omega⟩
  by_contra hmem
  have e4 := ServiceState.marking_member s a
  rw [decide_eq_false hmem, Bool.toNat_false] at e4
  omega

/-- **No session leaks when no `DisconnectEx` fails at once**: one that is no longer connected is being disconnected,
or its `OnDisconnected` has run and it has been released.  If the callbacks also come in order, none is left in the
manager either.  A session whose `DisconnectEx` has failed is never released. -/
theorem disconnected_sessions_leave {Buf : Type} (K : Contents Buf) (contents : K.State) (pb : Protobuf)
    (type : ServiceType) (junk : Nat → BYTE) :
    (∀ s : ServiceState Tid K, Reach (serviceStep type junk) NoDisconnectFails (serviceState₀ K contents) s → ∀ a,
      (s.session a).send.connected = false → (a ∈ s.sessions → s.disconnectPending a) ∧
      (0 < (s.session a).history.added → s.disconnectPending a ∨
        (s.session a).history.parted = 1 ∧ (s.session a).history.released = 1)) ∧
    (∀ s : ServiceState Tid (gameContents pb), Reach (serviceStep type junk)
      (fun s act s' => NoDisconnectFails s act s' ∧ GreetedFirst s act s') (serviceState₀ (gameContents pb) gameState₀) s →
      ∀ a ∈ s.game.manager, (s.session a).send.connected = false → s.disconnectPending a) ∧
    ∀ s : ServiceState Tid K, Reach (serviceStep type junk) Any (serviceState₀ K contents) s → ∀ a,
      0 < (s.session a).history.lost →
      a ∈ s.sessions ∧ (s.session a).send.connected = false ∧ (s.session a).history.parted = 0 := by
  refine ⟨fun s hs a hc => no_session_leaks hs a hc, fun s hs a hmem hc => ?_, fun s hs a => member_of_lost hs⟩
  by_contra hp
  have hlost := (lost_eq_zero (hs.mono (fun _ _ _ h => h.1)) a).2
  have hadded := added_of_manager hs a hmem
  rw [ServiceState.marking_added] at hadded
  obtain ⟨hparted, -⟩ := released_of_not_pending ((ServiceReach.inv hs).life a) hlost hc hadded hp
  exact not_in_manager (hs.mono (fun _ _ _ h => h.2)) a (.inl (by rw [hparted]; exact Nat.one_pos)) hmem

theorem not_pending_of_idle {Buf : Type} {K : Contents Buf} {s : ServiceState Two K} {a : Nat}
    (h1 : s.isIdle .one = true) (h2 : s.isIdle .two = true) (hops : (s.session a).disconnectEvent.ops = []) :
    ¬ s.disconnectPending a := by
  rintro (h | ⟨t, h⟩)
  · exact h hops
  · rw [workers_of_isIdle h1 h2] at h
    rcases h with ⟨_, h⟩ | ⟨_, h⟩ <;> cases h

/-- The `DisconnectEx` of session 0 fails with `WSAENOTCONN`, and its receive ends. -/
def disconnectFails : List (ServiceAct Two SendBufferRef) :=
  accepts ++ List.replicate 6 (.next .one .success) ++ sendFails [.send .two 0 ⟨0, .S_ENTER_GAME ⟨true⟩⟩] ++
    [.next .two ⟨.socketError 10057, true⟩, .next .two .success, .next .two .success,
      .dequeue .two (.recv 0 0 []) none, .next .two .success, .next .two .success]

/-- **After a `DisconnectEx` that fails the session stays**: every thread is idle, nothing is in flight, and the
session is disconnected and still in the set and in the manager, without an `OnDisconnected`. -/
theorem leaked_session : ∃ s, Reach (serviceStep .Server (fun _ => 0)) Any gameServer₀ s ∧
    (s.session 0).send.connected = false ∧ 0 ∈ s.sessions ∧ 0 ∈ s.game.manager ∧
    (s.session 0).history.parted = 0 ∧ ¬ s.disconnectPending 0 := by
  obtain ⟨s, hrun, hr⟩ := reach_of_run (serviceStep .Server (fun _ => 0)) Any gameServer₀ disconnectFails (by decide)
  have hidle : (gameRun Any disconnectFails).map (fun s => (s.isIdle .one, s.isIdle .two,
      (s.session 0).disconnectEvent.ops)) = some (true, true, []) := by decide
  have hend : (gameRun Any disconnectFails).map (fun s => ((s.session 0).send.connected, decide (0 ∈ s.sessions),
      decide (0 ∈ s.game.manager), (s.session 0).history.parted)) = some (false, true, true, 0) := by decide
  rw [gameRun, hrun, Option.map_some, Option.some.injEq] at hidle hend
  simp only [Prod.mk.injEq, decide_eq_true_eq] at hidle hend
  obtain ⟨hc, hmem, hmanager, hparted⟩ := hend
  exact ⟨s, hr, hc, hmem, hmanager, hparted, not_pending_of_idle hidle.1 hidle.2.1 hidle.2.2⟩

theorem disconnected_sessions_leave_two : ∃ s, gameRun (fun s act s' => NoDisconnectFails s act s' ∧ GreetedFirst s act s')
    disconnected = some s ∧ (s.session 0).history.parted = 1 ∧ 0 ∉ s.game.manager ∧ 0 ∉ s.sessions := by
  obtain ⟨s, hrun, hr⟩ := reach_of_run (serviceStep .Server (fun _ => 0))
    (fun s act s' => NoDisconnectFails s act s' ∧ GreetedFirst s act s') gameServer₀ disconnected (by decide)
  have hend : (gameRun (fun s act s' => NoDisconnectFails s act s' ∧ GreetedFirst s act s') disconnected).map (fun s =>
      (s.isIdle .one, s.isIdle .two, (s.session 0).disconnectEvent.ops, (s.session 0).send.connected,
      (s.session 0).history.parted)) = some (true, true, [], false, 1) := by decide
  rw [gameRun, hrun, Option.map_some, Option.some.injEq] at hend
  simp only [Prod.mk.injEq] at hend
  obtain ⟨h1, h2, hops, hc, hparted⟩ := hend
  have hquiet := not_pending_of_idle h1 h2 hops
  obtain ⟨hset, hmanager, -⟩ := @disconnected_sessions_leave Two _ _ _ (gameContents somePackets) gameState₀ somePackets
    .Server (fun _ => 0)
  exact ⟨s, hrun, hparted, fun hmem => hquiet (hmanager s hr 0 hmem hc),
    fun hmem => hquiet ((hset s (hr.mono (fun _ _ _ h => h.1)) 0 hc).1 hmem)⟩

end Geon
