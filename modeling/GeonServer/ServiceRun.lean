import GeonServer.ServiceStep
/-!
# ServiceRun — a session is connected, added, disconnected and released once

The invariant of the service over all runs (`serviceStep_inv`): the lives of the sessions, the owners of their events,
and the lock of the service with what it protects.  From it: nothing happens twice to a session and `_sessionCount`
counts the set (`session_released_once`), and an event has an owner as long as an operation is in flight
(`events_owned`).
-/
namespace Geon

open Net Lts Function

variable {Tid Buf : Type} {K : Contents Buf}

/-! ## The lock of the service -/

def Task.locks {Prog : Type} : Task Prog Buf → Bool
  | .processConnect _ _ .insert | .processDisconnect _ .uncount | .broadcast _ _ => true
  | _ => false

/-- Sessions that are counted and not in the set. -/
def Task.ahead {Prog : Type} : Task Prog Buf → Nat
  | .processConnect _ _ .insert | .processDisconnect _ .uncount => 1
  | _ => 0

theorem ahead_of_unlocked {Prog : Type} {task : Task Prog Buf} (h : task.locks = false) : task.ahead = 0 := by
  unfold Task.ahead
  split <;> first | rfl | cases h

namespace ServiceState

variable {type : ServiceType} {junk : Nat → BYTE} {answer : Answer} {s : ServiceState Tid K} {t : Tid} {a : Nat}
  {act : ServiceAct Tid Buf} {x : Session Tid Buf} {task task' : Task K.Prog Buf}

theorem afterRecv_locks (accepted : Bool) : (afterRecv accepted : Task K.Prog Buf).locks = false := by
  cases accepted <;> rfl

theorem TaskStep.locks {x' : Session Tid Buf} (h : TaskStep type junk answer a x task x' task') :
    task.locks = false ∧ task'.locks = false := by
  cases h with
  | recvSkip accepted | recvPost accepted | recvDrop accepted => exact ⟨rfl, afterRecv_locks accepted⟩
  | _ => exact ⟨rfl, rfl⟩

theorem Virtual.locks {inside : K.Prog → Task K.Prog Buf} {after : Task K.Prog Buf} {note : History → History}
    (h : Virtual a inside after note) : (∀ prog, (inside prog).locks = false) ∧ after.locks = false := by
  cases h <;> exact ⟨fun _ => rfl, rfl⟩

theorem HangsUp.locks (h : HangsUp s t a act task task') : task.locks = false ∧ task'.locks = false := by
  cases h <;> exact ⟨rfl, rfl⟩

theorem Creates.locks {f : Nat → Task K.Prog Buf} (h : Creates t act task f) :
    task.locks = false ∧ (f a).locks = false := by
  cases h <;> exact ⟨rfl, rfl⟩

theorem Dequeued.locks {error : Option Nat} {completion : Completion} {x' : Session Tid Buf} {owner : Bool}
    (h : Dequeued error a x completion x' task' owner) : task'.locks = false := by
  cases h <;> rfl

end ServiceState

variable [Fintype Tid]

namespace ServiceState

/-- What the lock protects, and who has it. -/
structure LockInv (s : ServiceState Tid K) : Prop where
  holder : ∀ t, (s.workers t).task.locks = true ↔ s.lock = some t
  count : s.sessionCount = BitVec.ofNat 32 (s.sessions.card + tally (fun w => w.task.ahead) s.workers)
  broadcasts : BroadcastsMembers s

variable [DecidableEq Tid] {s s' : ServiceState Tid K} {t : Tid} {a : Nat} {w : ServiceWorker K.Prog Buf}
  {task : Task K.Prog Buf}

/-- The lock, the set and the count stay as they are. -/
def SameSet (s s' : ServiceState Tid K) : Prop :=
  s'.lock = s.lock ∧ s'.sessions = s.sessions ∧ s'.sessionCount = s.sessionCount

theorem LockInv.same_task (h : LockInv s) (hw : s'.workers = update s.workers t w)
    (htask : w.task = (s.workers t).task) (hs : SameSet s s') : LockInv s' := by
  have htasks : ∀ u, (s'.workers u).task = (s.workers u).task := fun u => by
    rw [hw]
    exact apply_update_of_eq ServiceWorker.task s.workers htask u
  obtain ⟨h1, h2, h3⟩ := hs
  refine ⟨fun u => by rw [htasks, h1]; exact h.holder u, ?_, fun u sendBuffer todo hu => ?_⟩
  · rw [h3, h2, h.count]
    simp only [tally, htasks]
  · rw [htasks] at hu
    rw [h2]
    exact h.broadcasts u sendBuffer todo hu

theorem LockInv.outside (h : LockInv s) (hw : s'.workers = update s.workers t w)
    (hfrom : (s.workers t).task.locks = false) (hto : w.task.locks = false) (hs : SameSet s s') : LockInv s' := by
  obtain ⟨h1, h2, h3⟩ := hs
  refine ⟨fun u => ?_, ?_, fun u sendBuffer todo hu => ?_⟩
  · rw [hw, h1, ← h.holder u]
    rw [apply_update_of_eq (fun w : ServiceWorker K.Prog Buf => w.task.locks) s.workers (hto.trans hfrom.symm) u]
  · have := tally_update (fun w => w.task.ahead) s.workers t w
    rw [h3, h2, h.count, hw]
    rw [ahead_of_unlocked hfrom, ahead_of_unlocked hto] at this
    simp only [Nat.add_zero] at this
    rw [this]
  · rw [h2]
    rw [hw] at hu
    by_cases hut : u = t
    · subst hut
      rw [update_self] at hu
      rw [hu] at hto
      cases hto
    · rw [update_of_ne hut] at hu
      exact h.broadcasts u sendBuffer todo hu

theorem LockInv.forward (h : LockInv s) {sendBuffer : Buf} {b : Nat} {todo : List Nat}
    (hfrom : (s.workers t).task = .broadcast sendBuffer (b :: todo)) (hw : s'.workers = update s.workers t w)
    (hto : w.task = .broadcast sendBuffer todo) (hs : SameSet s s') : LockInv s' := by
  obtain ⟨h1, h2, h3⟩ := hs
  refine ⟨fun u => ?_, ?_, fun u sendBuffer' todo' hu => ?_⟩
  · rw [hw, h1, ← h.holder u, apply_update_of_eq (fun w : ServiceWorker K.Prog Buf => w.task.locks) s.workers
      (by rw [hto, hfrom]; rfl) u]
  · have := tally_update (fun w => w.task.ahead) s.workers t w
    have e1 : w.task.ahead = 0 := by rw [hto]; rfl
    have e2 : (s.workers t).task.ahead = 0 := by rw [hfrom]; rfl
    rw [e1, e2, Nat.add_zero, Nat.add_zero] at this
    rw [h3, h2, h.count, hw, this]
  · rw [h2]
    rw [hw] at hu
    by_cases hut : u = t
    · subst hut
      rw [update_self, hto] at hu
      cases hu
      exact fun c hc => h.broadcasts u _ _ hfrom c (List.mem_cons_of_mem _ hc)
    · rw [update_of_ne hut] at hu
      exact h.broadcasts u sendBuffer' todo' hu

omit [DecidableEq Tid] in
theorem LockInv.ahead_eq_zero (h : LockInv s) (hlock : s.lock = none) : tally (fun w => w.task.ahead) s.workers = 0 := by
  rw [tally_eq_zero]
  intro u
  refine ahead_of_unlocked ?_
  rw [← Bool.not_eq_true, h.holder u, hlock]
  exact fun hn => by cases hn

theorem LockInv.take (h : LockInv s) (hlock : s.lock = none) (hw : s'.workers = update s.workers t w)
    (hto : w.task.locks = true) (hl : s'.lock = some t)
    (hcount : s'.sessionCount = BitVec.ofNat 32 (s'.sessions.card + w.task.ahead))
    (hb : ∀ sendBuffer todo, w.task = .broadcast sendBuffer todo → ∀ b ∈ todo, b ∈ s'.sessions) : LockInv s' := by
  have hnone : ∀ u, (s.workers u).task.locks = false := fun u => by
    rw [← Bool.not_eq_true, h.holder u, hlock]
    exact fun hn => by cases hn
  refine ⟨fun u => ?_, ?_, fun u sendBuffer todo hu => ?_⟩
  · rw [hw, hl]
    by_cases hut : u = t
    · simp [hut, hto]
    · rw [update_of_ne hut, hnone u]
      simp [Ne.symm hut]
  · have := tally_update (fun w => w.task.ahead) s.workers t w
    rw [h.ahead_eq_zero hlock, ahead_of_unlocked (hnone t)] at this
    rw [hcount, hw]
    simp only [Nat.add_zero, Nat.zero_add] at this
    rw [this]
  · rw [hw] at hu
    by_cases hut : u = t
    · subst hut
      rw [update_self] at hu
      exact hb _ _ hu
    · rw [update_of_ne hut] at hu
      have := hnone u
      rw [hu] at this
      cases this

theorem LockInv.release (h : LockInv s) (hfrom : (s.workers t).task.locks = true)
    (hw : s'.workers = update s.workers t w) (hto : w.task.locks = false) (hl : s'.lock = none)
    (hcount : s.sessionCount = BitVec.ofNat 32 (s.sessions.card + (s.workers t).task.ahead) →
      s'.sessionCount = BitVec.ofNat 32 s'.sessions.card) : LockInv s' := by
  have hothers : ∀ u, u ≠ t → (s.workers u).task.locks = false := fun u hu => by
    rw [← Bool.not_eq_true, h.holder u, (h.holder t).1 hfrom]
    exact fun hn => hu (Option.some.inj hn).symm
  have hnone : ∀ u, (s'.workers u).task.locks = false := by
    rw [hw, forall_update_iff s.workers (p := fun _ w => w.task.locks = false)]
    exact ⟨hto, hothers⟩
  have hzero : tally (fun w => w.task.ahead) s'.workers = 0 :=
    (tally_eq_zero _ _).2 (fun u => ahead_of_unlocked (hnone u))
  have hsum : tally (fun w => w.task.ahead) s.workers = (s.workers t).task.ahead := by
    have := tally_update (fun w => w.task.ahead) s.workers t w
    rw [← hw, hzero, ahead_of_unlocked hto] at this
    omega
  refine ⟨fun u => ?_, ?_, fun u sendBuffer todo hu => ?_⟩
  · rw [hnone u, hl]
    simp
  · rw [hcount (by rw [h.count, hsum]), hzero, Nat.add_zero]
  · have := hnone u
    rw [hu] at this
    cases this

/-! ## The lock and the sends over a step -/

/-- The part of the invariant that is not about one session's life. -/
structure Kept (s : ServiceState Tid K) : Prop where
  lock : LockInv s
  owned : ∀ a, ∃ w, SendOwned (s.session a).send w

variable {x : Session Tid Buf} {task' : Task K.Prog Buf}

omit [Fintype Tid] [DecidableEq Tid] in
theorem owned_update (h : ∀ a, ∃ w, SendOwned (s.session a).send w) (hx : ∃ w, SendOwned x.send w) :
    ∀ b, ∃ w, SendOwned ((update s.session a x) b).send w :=
  (forall_update_iff s.session (p := fun _ x => ∃ w, SendOwned x.send w)).2 ⟨hx, fun b _ => h b⟩

theorem Kept.goto (h : Kept s) (hw : s.workers t = ⟨task, none, none⟩) (hfrom : task.locks = false)
    (hto : task'.locks = false) : Kept (s.goto t task') :=
  ⟨h.lock.outside rfl (by rw [hw]; exact hfrom) hto ⟨rfl, rfl, rfl⟩, h.owned⟩

theorem Kept.set (h : Kept s) (hw : s.workers t = ⟨task, none, none⟩) (hfrom : task.locks = false)
    (hto : task'.locks = false) (hx : ∃ w, SendOwned x.send w) : Kept ((s.setSession a x).goto t task') :=
  ⟨h.lock.outside rfl (by rw [hw]; exact hfrom) hto ⟨rfl, rfl, rfl⟩, owned_update h.owned hx⟩

omit [Fintype Tid] [DecidableEq Tid] in
theorem owned_setConnected {x : SendState Tid Buf} (h : ∃ w, SendOwned x w) (connected : Bool) :
    ∃ w, SendOwned { x with connected := connected } w := by
  obtain ⟨w, h⟩ := h
  exact ⟨w, h.setConnected connected⟩

theorem Kept.setSend (h : Kept s) {act : SendAct Tid Buf} {send : SendState Tid Buf}
    (he : sendStep (s.session a).send act = some send) (htask : (s.workers t).task = task) :
    Kept (s.setSend t a task send) := by
  obtain ⟨w, hw⟩ := h.owned a
  exact ⟨h.lock.same_task rfl htask.symm ⟨rfl, rfl, rfl⟩, owned_update h.owned (sendStep_owned hw he)⟩

omit [DecidableEq Tid] in
theorem Kept.contents (h : Kept s) (contents : K.State) : Kept { s with contents := contents } :=
  ⟨⟨h.lock.holder, h.lock.count, h.lock.broadcasts⟩, h.owned⟩

omit [Fintype Tid] [DecidableEq Tid] in
theorem sendOwned_new : ∃ w, SendOwned (Session.new : Session Tid Buf).send w :=
  ⟨.nowhere, {
    solo := fun _ => ⟨fun h => (by cases h), fun h => (by cases h)⟩
    flight := fun h => by cases h
    landed := fun _ => rfl
    registered := fun h => absurd rfl h
    thread := fun _ h => by cases h }⟩

theorem Kept.createSession (h : Kept s) {f : Nat → Task K.Prog Buf} (hw : s.workers t = ⟨task, none, none⟩)
    (hfrom : task.locks = false) (hto : (f s.numSessions).locks = false) : Kept (s.createSession t f) :=
  ⟨h.lock.outside rfl (by rw [hw]; exact hfrom) hto ⟨rfl, rfl, rfl⟩, owned_update h.owned sendOwned_new⟩

omit [DecidableEq Tid] in
theorem Kept.dispatch (h : Kept s) (owner : Bool) : Kept (s.dispatch owner) := by
  unfold ServiceState.dispatch
  split
  · exact h
  · exact ⟨⟨h.lock.holder, h.lock.count, h.lock.broadcasts⟩, h.owned⟩

theorem LockInv.lockStep (h : LockInv s) (hL : ∀ a, Life (s.marking a)) {act : ServiceAct Tid Buf}
    {s₁ : ServiceState Tid K} (hw : s.workers t = ⟨task, none, none⟩) (hstep : LockStep s t a act task s₁ x task') :
    LockInv ((s₁.setSession a x).goto t task') := by
  cases hstep with
  | count answer accepted hlock =>
    refine h.take hlock rfl rfl rfl ?_ (fun _ _ hb => by cases hb)
    show s.sessionCount + 1 = BitVec.ofNat 32 (s.sessions.card + 1)
    rw [h.count, h.ahead_eq_zero hlock, Nat.add_zero, BitVec.ofNat_add]
    rfl
  | insert answer accepted =>
    have hmem := notMem_of_adding (hL a) (marking_pos_of_task (t := t) (by rw [hw]; rfl))
    refine h.release (by rw [hw]; rfl) rfl rfl rfl (fun hcount => ?_)
    show s.sessionCount = BitVec.ofNat 32 (insert a s.sessions).card
    rw [Finset.card_insert_of_notMem hmem, hcount, hw]
    rfl
  | release answer hlock hmem =>
    refine h.take hlock rfl rfl rfl ?_ (fun _ _ hb => by cases hb)
    show s.sessionCount = BitVec.ofNat 32 ((s.sessions.erase a).card + 1)
    rw [h.count, h.ahead_eq_zero hlock, Finset.card_erase_add_one hmem]
    rfl
  | uncount answer =>
    refine h.release (by rw [hw]; rfl) rfl rfl rfl (fun hcount => ?_)
    show s.sessionCount - 1 = BitVec.ofNat 32 s.sessions.card
    rw [hcount, hw]
    show BitVec.ofNat 32 (s.sessions.card + 1) - 1 = _
    rw [BitVec.ofNat_add]
    exact BitVec.add_sub_cancel _ _
  | broadcast sendBuffer order hlock _ hset =>
    refine h.take hlock rfl rfl rfl ?_ (fun _ _ hb b hmem => ?_)
    · show s.sessionCount = BitVec.ofNat 32 (s.sessions.card + 0)
      rw [h.count, h.ahead_eq_zero hlock]
    · cases hb
      show b ∈ s.sessions
      rw [← hset]
      exact List.mem_toFinset.2 hmem
  | broadcastEnd answer sendBuffer =>
    refine h.release (by rw [hw]; rfl) rfl rfl rfl (fun hcount => ?_)
    rw [hcount, hw]
    rfl

theorem Kept.callSend (h : Kept s) {act : ServiceAct Tid Buf} {b : Nat} {sendBuffer : Buf} {contents : K.State}
    {send : SendState Tid Buf} (hw : s.workers t = ⟨task, none, none⟩)
    (hsender : Sender s t b sendBuffer act task contents task')
    (he : sendStep (s.session b).send (.send t sendBuffer) = some send) :
    Kept ({ s with contents := contents }.setSend t b task' send) := by
  obtain ⟨w, hown⟩ := h.owned b
  refine ⟨?_, owned_update h.owned (sendStep_owned hown he)⟩
  cases hsender with
  | callback answer hv _ _ => exact h.lock.outside rfl (by rw [hw]; exact hv.locks.1 _) (hv.locks.1 _) ⟨rfl, rfl, rfl⟩
  | broadcast answer sessions => exact h.lock.forward (by rw [hw]) rfl rfl ⟨rfl, rfl, rfl⟩
  | contents _ => exact h.lock.outside rfl (by rw [hw]; rfl) rfl ⟨rfl, rfl, rfl⟩

theorem Kept.step (h : Kept s) (hL : ∀ a, Life (s.marking a)) {type : ServiceType} {junk : Nat → BYTE}
    {act : ServiceAct Tid Buf} (he : serviceStep type junk s act = some s') : Kept s' := by
  cases serviceStep_effect he with
  | @task t answer a x task task' hw hstep =>
    refine h.set hw hstep.locks.1 hstep.locks.2 ?_
    rcases hstep.send with hsend | hsend <;> rw [hsend]
    · exact h.owned a
    · exact owned_setConnected (h.owned a) true
  | lock hw hstep =>
    refine ⟨h.lock.lockStep hL hw hstep, ?_⟩
    rw [hstep.same.1]
    exact owned_update h.owned (by rw [hstep.send]; exact h.owned _)
  | goOn hw hv _ => exact (h.contents _).goto hw (hv.locks.1 _) (hv.locks.1 _)
  | ret hw hv _ => exact (h.contents _).set hw (hv.locks.1 _) hv.locks.2 (h.owned _)
  | callSend hw hsender hsend => exact h.callSend hw hsender hsend
  | sending _ _ hsend => exact h.setSend hsend rfl
  | hangUp hw hh _ =>
    exact ⟨h.lock.outside rfl (by rw [hw]; exact hh.locks.1) hh.locks.2 ⟨rfl, rfl, rfl⟩,
      owned_update h.owned (owned_setConnected (h.owned _) false)⟩
  | hungUp hw hh _ => exact h.goto hw hh.locks.1 hh.locks.2
  | close _ hstep =>
    exact ⟨h.lock.same_task rfl rfl ⟨rfl, rfl, rfl⟩, owned_update h.owned (by rw [hstep.send]; exact h.owned _)⟩
  | create hw hc => exact h.createSession hw (hc.locks (a := s.numSessions)).1 hc.locks.2
  | startAccept hw _ => exact h.goto hw rfl rfl
  | take hw _ hd => exact (h.set hw rfl hd.locks (by rw [hd.send]; exact h.owned _)).dispatch _
  | takeSend hw _ hsend => exact (h.setSend hsend (by rw [hw])).dispatch _
  | releaseFails _ _ _ => exact ⟨⟨h.lock.holder, h.lock.count, h.lock.broadcasts⟩, h.owned⟩
  | destroy _ _ _ => exact ⟨⟨h.lock.holder, h.lock.count, h.lock.broadcasts⟩, owned_update h.owned (h.owned _)⟩

end ServiceState

/-! ## Every run -/

/-- **The invariant of the service.** -/
structure ServiceInv (s : ServiceState Tid K) : Prop where
  life : ∀ a, Life (s.marking a)
  kept : s.Kept
  crashed : s.crashed = none

variable [DecidableEq Tid] {type : ServiceType} {junk : Nat → BYTE} {s s' : ServiceState Tid K}
  {act : ServiceAct Tid Buf}

theorem ServiceInv.moves (h : ServiceInv s) (he : serviceStep type junk s act = some s') : ∃ a, s.Moves s' act a :=
  ServiceState.step_moves h.life h.kept.owned h.kept.lock.broadcasts he

omit [DecidableEq Tid] in
/-- **What holds of the life of every session survives a step** when every move of one session keeps it. -/
theorem forall_of_moves {P : (Place → Nat) → Prop} (hP : ∀ a, P (s.marking a)) {a : Nat} {r : LifeRule}
    (hm : s.Moved s' a r) (hr : P (s'.marking a)) (b : Nat) : P (s'.marking b) := by
  by_cases hb : b = a
  · rw [hb]
    exact hr
  · rw [hm.others b hb]
    exact hP b

/-- **Every step keeps the invariant.** -/
theorem serviceStep_inv (h : ServiceInv s) (he : serviceStep type junk s act = some s') : ServiceInv s' := by
  obtain ⟨a, hcrash, r, hm, -⟩ := h.moves he
  exact ⟨forall_of_moves h.life hm ((h.life a).fire hm.guard hm.fires), h.kept.step h.life he, hcrash.trans h.crashed⟩

omit [DecidableEq Tid] in
theorem marking_start (K : Contents Buf) (contents : K.State) (a : Nat) :
    (serviceState₀ K contents : ServiceState Tid K).marking a = fun _ => 0 := by
  funext p
  have h0 : tally (fun w => w.marks.count (a, p)) (serviceState₀ K contents : ServiceState Tid K).workers = 0 :=
    tally_const_zero _ _ rfl
  rw [ServiceState.marking, h0]
  cases p <;> rfl

omit [DecidableEq Tid] in
theorem serviceInv_start (K : Contents Buf) (contents : K.State) :
    ServiceInv (serviceState₀ K contents : ServiceState Tid K) where
  life a := by
    rw [marking_start]
    exact life_zero
  kept := {
    lock := {
      holder := fun t => ⟨fun h => (by cases h), fun h => (by cases h)⟩
      count := by
        have h0 : tally (fun w => w.task.ahead) (serviceState₀ K contents : ServiceState Tid K).workers = 0 :=
          tally_const_zero _ _ rfl
        rw [h0]
        rfl
      broadcasts := fun _ _ _ h => by cases h }
    owned := fun _ => ServiceState.sendOwned_new }
  crashed := rfl

theorem ServiceReach.inv {ok : ServiceState Tid K → ServiceAct Tid Buf → ServiceState Tid K → Prop}
    {contents : K.State} (hs : Reach (serviceStep type junk) ok (serviceState₀ K contents) s) : ServiceInv s :=
  hs.inv (P := fun s : ServiceState Tid K => ServiceInv s) (serviceInv_start K contents)
    (fun _ _ _ _ h he _ => serviceStep_inv h he)

/-! ## Exactly once -/

/-- **A session is connected once, and disconnected once and only after it was added**; the assertion of
`ReleaseSession` never fails, and `_sessionCount` counts `_sessions`. -/
theorem session_released_once {contents : K.State}
    (hs : Reach (serviceStep type junk) Any (serviceState₀ K contents) s) :
    s.crashed ≠ some .releaseSession ∧
    (∀ a, (s.session a).history.connects ≤ 1 ∧ (s.session a).history.disconnects ≤ 1 ∧
      (s.session a).history.disconnects ≤ (s.session a).history.added) ∧
    (s.lock = none → s.sessionCount = BitVec.ofNat 32 s.sessions.card ∧
      (s.sessions.card < 2 ^ 31 → s.sessionCount.toInt = s.sessions.card)) := by
  have hinv := ServiceReach.inv hs
  refine ⟨by rw [hinv.crashed]; exact fun h => (by cases h), fun a => ?_, fun hlock => ?_⟩
  · have hfacts := (hinv.life a).facts
    have honce := hfacts.entering_le
    have hclosed := hfacts.closed
    have e1 : s.marking a .connects = (s.session a).history.connects := ServiceState.marking_flag s a rfl
    have e2 : s.marking a .disconnects = (s.session a).history.disconnects := ServiceState.marking_flag s a rfl
    have e3 := ServiceState.marking_added s a
    omega
  · have hcount := hinv.kept.lock.count
    rw [hinv.kept.lock.ahead_eq_zero hlock, Nat.add_zero] at hcount
    refine ⟨hcount, fun hlt => ?_⟩
    have hmod : s.sessions.card % 2 ^ 32 = s.sessions.card := Nat.mod_eq_of_lt (by omega)
    rw [hcount, BitVec.toInt_eq_toNat_of_lt (by rw [BitVec.toNat_ofNat, hmod]; omega), BitVec.toNat_ofNat, hmod]

/-- A client connects: `ConnectEx`, its completion, `ProcessConnect` and the first `WSARecv`. -/
def clientConnects (t : Two) : List (ServiceAct Two Nat) :=
  [.connect t, .next t .success, .next t .success, .dequeue t (.connect 0) none] ++ List.replicate 6 (.next t .success)

/-- Thread two is in a `WSASend` that the peer has reset when thread one takes a receive of no bytes; both call
`Disconnect`, and thread one takes the completion of the one `DisconnectEx`. -/
def twoDisconnects : List (ServiceAct Two Nat) :=
  clientConnects .one ++ [.send .two 0 7, .next .two .success, .next .two .success, .next .two .success,
    .dequeue .one (.recv 0 0 []) none, .next .one .success, .next .two ⟨.socketError WSAECONNRESET, true⟩,
    .next .two .success, .next .one .success] ++ List.replicate 3 (.next .two .success) ++
    [.dequeue .one (.disconnect 0) none] ++ List.replicate 4 (.next .one .success)

theorem session_released_once_two : ∃ s, run (serviceStep .Client (fun _ => 0)) Any
    (serviceState₀ (Session.contents Nat) ()) twoDisconnects = some s ∧ s.sessions.card = 0 ∧
    (s.session 0).history.disconnects ≤ 1 ∧ s.crashed ≠ some .releaseSession := by
  obtain ⟨s, hrun, hr⟩ := reach_of_run (serviceStep .Client (fun _ => 0)) Any
    (serviceState₀ (Session.contents Nat) () : ServiceState Two _) twoDisconnects (by decide)
  have hcard : (run (serviceStep .Client (fun _ => 0)) Any
      (serviceState₀ (Session.contents Nat) () : ServiceState Two _) twoDisconnects).map (·.sessions.card) =
      some 0 := by decide
  obtain ⟨hcrash, honce, -⟩ := session_released_once hr
  exact ⟨s, hrun, by simpa [hrun] using hcard, (honce 0).2.1, hcrash⟩

/-! ## Owners -/

/-- **An event has an owner from before its operation is posted until the completion is dispatched**: at most one
operation of it is in flight, `IocpCore::Dispatch` never finds a null owner, and a session that has been destroyed has
nothing in flight. -/
theorem events_owned {contents : K.State} (hs : Reach (serviceStep type junk) Any (serviceState₀ K contents) s) :
    s.crashed ≠ some .nullOwner ∧ ∀ a,
      ((s.session a).connectEvent.ops.length ≤ 1 ∧ (s.session a).disconnectEvent.ops.length ≤ 1 ∧
        (s.session a).recvEvent.ops.length ≤ 1) ∧
      ((s.session a).connectEvent.ops ≠ [] ∨ (∃ t, (s.workers t).holdsConnect a) →
        (s.session a).connectEvent.owner = true) ∧
      ((s.session a).disconnectEvent.ops ≠ [] ∨ (∃ t, (s.workers t).holdsDisconnect a) →
        (s.session a).disconnectEvent.owner = true) ∧
      ((s.session a).recvEvent.ops ≠ [] ∨ (∃ t, (s.workers t).holdsRecv a) →
        (s.session a).recvEvent.owner = true) ∧
      ((s.session a).send.outstanding ≠ [] → (s.session a).send.sendEvent.owner = true) ∧
      ((s.session a).destroyed = true → (s.session a).connectEvent.ops = [] ∧ (s.session a).disconnectEvent.ops = [] ∧
        (s.session a).recvEvent.ops = [] ∧ (s.session a).send.outstanding = [] ∧ ∀ t, ¬ (s.workers t).uses a) := by
  have hinv := ServiceReach.inv hs
  refine ⟨by rw [hinv.crashed]; exact fun h => (by cases h), fun a => ⟨?_, ServiceState.connectEvent_owned (hinv.life a),
    ServiceState.disconnectEvent_owned (hinv.life a), ServiceState.recvEvent_owned (hinv.life a), fun ho => ?_,
    fun hd => ?_⟩⟩
  · have hfacts := (hinv.life a).facts
    have hborn := hfacts.born
    have hcreated := hfacts.created
    have honce := hfacts.entering_le
    have hgreeted := hfacts.greeted
    have hchain := hfacts.chain
    have hclosed := hfacts.closed
    have e1 := ServiceState.marking_connectOp s a
    have e2 := ServiceState.marking_disconnectOp s a
    have e3 := ServiceState.marking_recvOp s a
    omega
  · obtain ⟨w, hown⟩ := hinv.kept.owned a
    exact hown.owner_of_flight ho
  · have hdead := (hinv.life a).dead (by
      rw [ServiceState.marking_flag _ _ rfl]
      simp [Session.part, hd])
    have hops : ∀ p ∈ livePlaces, p.inCode = false →
        (s.session a).part (decide (a ∈ s.sessions)) (decide (a < s.numSessions)) p = 0 := fun p hp hc => by
      rw [← ServiceState.marking_flag s a hc]
      exact hdead p hp
    refine ⟨?_, ?_, ?_, ?_, fun t hu => ?_⟩
    · exact List.length_eq_zero_iff.1 (hops .connectOp (by decide) rfl)
    · exact List.length_eq_zero_iff.1 (hops .disconnectOp (by decide) rfl)
    · exact List.length_eq_zero_iff.1 (hops .recvOp (by decide) rfl)
    · exact List.length_eq_zero_iff.1 (hops .sendOp (by decide) rfl)
    · obtain ⟨p, hp⟩ := uses_iff.1 hu
      have := ServiceState.marking_pos hp
      have := hdead p (mem_livePlaces (inCode_of_mem_marks hp))
      omega

theorem events_owned_two : ∃ s, run (serviceStep .Client (fun _ => 0)) Any
    (serviceState₀ (Session.contents Nat) ()) (clientConnects .one) = some s ∧ (s.session 0).recvEvent.ops.length = 1 ∧
    (s.session 0).recvEvent.owner = true ∧ s.crashed ≠ some .nullOwner := by
  obtain ⟨s, hrun, hr⟩ := reach_of_run (serviceStep .Client (fun _ => 0)) Any
    (serviceState₀ (Session.contents Nat) () : ServiceState Two _) (clientConnects .one) (by decide)
  have hops : (run (serviceStep .Client (fun _ => 0)) Any
      (serviceState₀ (Session.contents Nat) () : ServiceState Two _) (clientConnects .one)).map
      (fun s => (s.session 0).recvEvent.ops.length) = some 1 := by decide
  have hops : (s.session 0).recvEvent.ops.length = 1 := by simpa [hrun] using hops
  obtain ⟨hcrash, howned⟩ := events_owned hr
  refine ⟨s, hrun, hops, (howned 0).2.2.2.1 (.inl (fun h => ?_)), hcrash⟩
  rw [h] at hops
  cases hops

end Geon
