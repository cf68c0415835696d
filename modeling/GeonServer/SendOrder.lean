import GeonServer.SendRun
import GeonServer.Tally
import GeonServer.Ends
/-!
# SendOrder — what the send path does whatever `WSASend` answers

The runs of `SendRun` with any answer of `WSASend`, also those after which a batch is dropped while the session stays
connected.  The token still is in one place (`SendFifo`), so what was posted is a subsequence of what was pushed, and
all of it but what is on the way while nothing was dropped (`send_order`).  Without new calls of `Send` every run comes
to an end, and then nobody is in the sending code and no send is outstanding (`send_quiesces`).
-/
namespace Geon

open Lts Function

variable {Tid Buf : Type*} [DecidableEq Tid]

/-! ## The invariant -/

/-- What the session looks like to the thread that has the token, by where the thread is. -/
def SendState.PcHas (s : SendState Tid Buf) : SendPc Buf → Prop
  | .registerCheck _ | .registerDrain _ => s.sendEvent.sendBuffers = [] ∧ s.sendQueue ≠ []
  | .processCheck _ | .processLock | .processEmpty => s.sendEvent.sendBuffers = []
  | _ => True

/-- What the session looks like with the token in a place. -/
def SendState.Carried (s : SendState Tid Buf) : SendWhere Tid → Prop
  | .nowhere => s.outstanding = [] ∧ s.sendEvent.sendBuffers = []
  | .thread t => s.outstanding = [] ∧ s.sendRegistered = true ∧ s.PcHas (s.pcs t)
  | .flight => s.outstanding.length = 1 ∧ s.sendRegistered = true

/-- Everything that was pushed and not dropped, in the order of the pushes. -/
def SendState.inOrder (s : SendState Tid Buf) (hand : List Buf) : List Buf :=
  s.posted.flatten ++ hand ++ s.sendQueue

/-- **The invariant of the send path in every run**, with the token at `w`. -/
structure SendFifo (s : SendState Tid Buf) (w : SendWhere Tid) : Prop where
  solo : ∀ t, (s.pcs t).token = true ↔ w = .thread t
  carried : s.Carried w
  sub : (s.inOrder (s.inHand w)).Sublist s.pushed
  exact : s.dropped = [] → s.pushed = s.inOrder (s.inHand w)

omit [DecidableEq Tid] in
theorem sendFifo₀ : SendFifo (sendState₀ : SendState Tid Buf) .nowhere where
  solo t := by simp [sendState₀, SendPc.token]
  carried := ⟨rfl, rfl⟩
  sub := .slnil
  exact _ := rfl

variable {s : SendState Tid Buf} {w : SendWhere Tid}

/-! ## The steps -/

/-- **A thread without the token moves**, and the token's part of the session stays. -/
theorem SendFifo.beside (h : SendFifo s w) {t : Tid} {s₁ : SendState Tid Buf} {pc : SendPc Buf}
    (hpcs : s₁.pcs = s.pcs) (ht : (s.pcs t).token = false) (hpc : pc.token = false)
    (hevent : s₁.sendEvent = s.sendEvent) (hout : s₁.outstanding = s.outstanding)
    (hreg : s.sendRegistered = true → s₁.sendRegistered = true) (hqueue : s.sendQueue ≠ [] → s₁.sendQueue ≠ [])
    (hsub : ∀ hand, (s.inOrder hand).Sublist s.pushed → (s₁.inOrder hand).Sublist s₁.pushed)
    (hexact : ∀ hand, (s.dropped = [] → s.pushed = s.inOrder hand) → s₁.dropped = [] → s₁.pushed = s₁.inOrder hand) :
    SendFifo (s₁.goto t pc) w := by
  have hhand : (s₁.goto t pc).inHand w = s.inHand w := by
    cases w with
    | nowhere => rfl
    | flight => rfl
    | thread u =>
      simp only [SendState.goto, SendState.inHand, hpcs, update_of_ne (solo_ne h.solo ht), hevent]
  refine ⟨?_, ?_, ?_, ?_⟩
  · show ∀ u, (update s₁.pcs t pc u).token = true ↔ w = .thread u
    rw [hpcs]
    exact solo_pass h.solo ht hpc
  · have hc := h.carried
    cases w with
    | nowhere => exact ⟨hout.trans hc.1, (congrArg SendEvent.sendBuffers hevent).trans hc.2⟩
    | flight => exact ⟨(congrArg List.length hout).trans hc.1, hreg hc.2⟩
    | thread u =>
      refine ⟨hout.trans hc.1, hreg hc.2.1, ?_⟩
      have hhas := hc.2.2
      simp only [SendState.goto, hpcs, update_of_ne (solo_ne h.solo ht)]
      generalize s.pcs u = pcu at hhas
      cases pcu <;> simp only [SendState.PcHas, hevent] at hhas ⊢ <;>
        first | exact hhas | exact ⟨hhas.1, hqueue hhas.2⟩
  · rw [hhand]
    exact hsub _ h.sub
  · rw [hhand]
    exact hexact _ h.exact

/-- The token stays with the thread. -/
theorem SendFifo.keep {t : Tid} (h : SendFifo s (.thread t)) {s₁ : SendState Tid Buf} {pc : SendPc Buf}
    (hpcs : s₁.pcs = s.pcs) (hpc : pc.token = true) (hout : s₁.outstanding = []) (hreg : s₁.sendRegistered = true)
    (hhas : s₁.PcHas pc)
    (hsub : (s₁.inOrder (if pc.holding then s₁.sendEvent.sendBuffers else [])).Sublist s₁.pushed)
    (hexact : s₁.dropped = [] → s₁.pushed = s₁.inOrder (if pc.holding then s₁.sendEvent.sendBuffers else [])) :
    SendFifo (s₁.goto t pc) (.thread t) := by
  refine ⟨solo_keep (fun u hu => by rw [hpcs]; exact solo_others h.solo hu) hpc, ⟨hout, hreg, ?_⟩, ?_, ?_⟩
  · simp only [SendState.goto, update_self]
    exact hhas
  · simp only [SendState.goto, SendState.inHand, update_self]
    exact hsub
  · simp only [SendState.goto, SendState.inHand, update_self]
    exact hexact

/-- The thread lets the token go. -/
theorem SendFifo.give {t : Tid} (h : SendFifo s (.thread t)) {s₁ : SendState Tid Buf} {pc : SendPc Buf}
    (hpcs : s₁.pcs = s.pcs) (hpc : pc.token = false) (hw : ∀ u, w ≠ .thread u) (hcarried : s₁.Carried w)
    (hsub : (s₁.inOrder []).Sublist s₁.pushed) (hexact : s₁.dropped = [] → s₁.pushed = s₁.inOrder []) :
    SendFifo (s₁.goto t pc) w := by
  have hhand : (s₁.goto t pc).inHand w = [] := by
    cases w with
    | thread u => exact absurd rfl (hw u)
    | nowhere => rfl
    | flight => rfl
  refine ⟨solo_drop (fun u hu => by rw [hpcs]; exact solo_others h.solo hu) hpc hw, ?_, ?_, ?_⟩
  · cases w with
    | thread u => exact absurd rfl (hw u)
    | nowhere => exact hcarried
    | flight => exact hcarried
  · rw [hhand]
    exact hsub
  · rw [hhand]
    exact hexact

omit [DecidableEq Tid] in
/-- The queue grows by what was pushed. -/
theorem inOrder_push (s : SendState Tid Buf) (b : Buf) (hand : List Buf) :
    SendState.inOrder { s with
      sendQueue := s.sendQueue ++ [b], sendRegistered := true, pushed := s.pushed ++ [b] } hand =
      s.inOrder hand ++ [b] := by
  simp [SendState.inOrder]

theorem SendFifo.push (h : SendFifo s w) {t : Tid} (ht : (s.pcs t).token = false) (b : Buf) :
    SendFifo ({ s with
      sendQueue := s.sendQueue ++ [b], sendRegistered := true, pushed := s.pushed ++ [b] }.goto t .idle) w := by
  refine h.beside rfl ht rfl rfl rfl (fun _ => rfl) (fun _ => by simp) (fun hand hsub => ?_) (fun hand hexact hd => ?_)
  · rw [inOrder_push]
    exact hsub.append (.refl [b])
  · rw [inOrder_push]
    exact congrArg (· ++ [b]) (hexact hd)

/-- The token comes into being: `_sendRegistered` was not set, so it was nowhere. -/
theorem SendFifo.pushFirst (h : SendFifo s w) (t : Tid) (hr : s.sendRegistered = false) (b : Buf) :
    SendFifo ({ s with
      sendQueue := s.sendQueue ++ [b], sendRegistered := true, pushed := s.pushed ++ [b]
      }.goto t (.registerCheck false)) (.thread t) := by
  cases w with
  | flight => exact absurd h.carried.2 (by simp [hr])
  | thread u => exact absurd h.carried.2.1 (by simp [hr])
  | nowhere =>
    have hno : ∀ u, u ≠ t → (s.pcs u).token = false := fun u _ => solo_free h.solo (by simp)
    refine ⟨solo_keep hno rfl, ⟨h.carried.1, rfl, ?_⟩, ?_, fun hd => ?_⟩
    · simp only [SendState.goto, update_self]
      exact ⟨h.carried.2, by simp⟩
    · simp only [SendState.goto, SendState.inHand, update_self, SendPc.holding, Bool.false_eq_true, if_false]
      have := h.sub.append (List.Sublist.refl [b])
      simpa [SendState.inOrder, SendState.inHand] using this
    · simp only [SendState.goto, SendState.inHand, update_self, SendPc.holding, Bool.false_eq_true, if_false]
      have := congrArg (· ++ [b]) (h.exact hd)
      simpa [SendState.inOrder, SendState.inHand] using this

omit [DecidableEq Tid] in
/-- The batch in hand is dropped. -/
theorem inOrder_drop (s : SendState Tid Buf) (hand : List Buf) : (s.inOrder []).Sublist (s.inOrder hand) := by
  rw [SendState.inOrder, SendState.inOrder, List.append_nil]
  exact (List.sublist_append_left _ _).append (.refl _)

omit [DecidableEq Tid] in
/-- The queue is in hand. -/
theorem inOrder_drain (s : SendState Tid Buf) (hempty : s.sendEvent.sendBuffers = []) :
    SendState.inOrder { s with
      sendQueue := [], sendEvent := { s.sendEvent with sendBuffers := drain s.sendEvent.sendBuffers s.sendQueue } }
      (drain s.sendEvent.sendBuffers s.sendQueue) = s.inOrder [] := by
  simp [SendState.inOrder, drain_eq, hempty]

theorem SendFifo.next (h : SendFifo s w) {t : Tid} {wsaSend : WsaResult} {s' : SendState Tid Buf}
    (he : s.next t wsaSend = some s') : ∃ w', SendFifo s' w' := by
  by_cases htok : (s.pcs t).token = true
  case neg =>
    rw [Bool.not_eq_true] at htok
    obtain ⟨b, _, -, rfl, rfl⟩ | ⟨-, rfl⟩ := next_without_token htok he
    · split
      · exact ⟨_, h.pushFirst t ‹_› b⟩
      · exact ⟨w, h.push htok b⟩
    · exact ⟨w, h.beside rfl htok rfl rfl rfl id id (fun _ => id) (fun _ => id)⟩
  case pos =>
    obtain rfl := (h.solo t).1 htok
    obtain ⟨ho, hr, hhas⟩ := h.carried
    have hsub := h.sub
    have hex := h.exact
    simp only [SendState.inHand] at hsub hex
    unfold SendState.next at he
    cases hpc : (s.pcs t) <;>
      simp only [hpc, SendPc.holding, if_true, Bool.false_eq_true, if_false] at he hhas hsub hex
    case idle => cases he
    case sendPush => rw [hpc] at htok; cases htok
    case processUnlock => rw [hpc] at htok; cases htok
    case registerCheck locked =>
      split at he <;> cases he
      · exact ⟨.nowhere, h.give rfl (token_leave locked) (by simp) ⟨ho, hhas.1⟩ hsub hex⟩
      · exact ⟨_, h.keep rfl rfl ho hr hhas hsub hex⟩
    case registerDrain locked =>
      split at he <;> cases he
      have heq := inOrder_drain s hhas.1
      exact ⟨_, h.keep rfl rfl ho hr trivial (heq ▸ hsub) (fun hd => (hex hd).trans heq.symm)⟩
    case registerPost locked =>
      split at he <;> cases he
      · refine ⟨.flight, h.give rfl (token_leave locked) (by simp) ⟨by simp [ho], hr⟩ ?_ (fun hd => ?_)⟩
        · simpa [SendState.inOrder] using hsub
        · simpa [SendState.inOrder] using hex hd
      · exact ⟨_, h.keep rfl rfl ho hr trivial hsub hex⟩
    case registerError locked errorCode =>
      split at he <;> cases he
      · exact ⟨_, h.keep rfl rfl ho hr trivial hsub hex⟩
      · exact ⟨_, h.keep rfl rfl ho hr trivial hsub hex⟩
    case registerReset locked =>
      cases he
      refine ⟨.nowhere, h.give rfl (token_leave locked) (by simp) ⟨ho, rfl⟩ ((inOrder_drop s _).trans hsub) ?_⟩
      intro hd
      exact absurd hd (by simp)
    case processClear n =>
      cases he
      exact ⟨_, h.keep rfl rfl ho hr rfl hsub hex⟩
    case processCheck n =>
      split at he <;> cases he
      · exact ⟨.nowhere, h.give rfl rfl (by simp) ⟨ho, hhas⟩ hsub hex⟩
      · exact ⟨_, h.keep rfl rfl ho hr hhas hsub hex⟩
    case processLock =>
      split at he <;> cases he
      exact ⟨_, h.keep rfl rfl ho hr hhas hsub hex⟩
    case processEmpty =>
      split at he <;> cases he
      · exact ⟨.nowhere, h.give rfl rfl (by simp) ⟨ho, hhas⟩ hsub hex⟩
      · rename_i hq
        exact ⟨_, h.keep rfl rfl ho hr ⟨hhas, by simp [hq]⟩ hsub hex⟩

/-- **The step lemma**, for every answer of `WSASend`. -/
theorem sendStep_fifo (h : SendFifo s w) {a : SendAct Tid Buf} {s' : SendState Tid Buf}
    (he : sendStep s a = some s') : ∃ w', SendFifo s' w' := by
  cases a with
  | next t wsaSend => exact h.next he
  | disconnect =>
    cases he
    exact ⟨w, h.solo, by cases w <;> exact h.carried, by cases w <;> exact h.sub, by cases w <;> exact h.exact⟩
  | send t b =>
    simp only [sendStep] at he
    split at he <;> cases he
    rename_i hpc
    split
    · exact ⟨w, h⟩
    · exact ⟨w, h.beside rfl (by rw [hpc]; rfl) rfl rfl rfl id id (fun _ => id) (fun _ => id)⟩
  | complete t i n =>
    simp only [sendStep] at he
    split at he
    · rename_i hpc
      split at he <;> cases he
      rename_i hi
      cases w with
      | nowhere =>
        rw [h.carried.1] at hi
        cases hi
      | thread u =>
        rw [h.carried.1] at hi
        cases hi
      | flight =>
        have hno : ∀ u, u ≠ t → (s.pcs u).token = false := fun u _ => solo_free h.solo (by simp)
        obtain ⟨ho, hr⟩ := h.carried
        obtain ⟨batch, hb⟩ := List.length_eq_one_iff.1 ho
        obtain rfl : i = 0 := by omega
        refine ⟨.thread t, solo_keep hno rfl, ⟨?_, hr, ?_⟩, ?_, fun hd => ?_⟩
        · simp [SendState.goto, hb]
        · simp only [SendState.goto, update_self, SendState.PcHas]
        · simpa [SendState.goto, SendState.inHand, SendPc.holding, SendState.inOrder] using h.sub
        · simpa [SendState.goto, SendState.inHand, SendPc.holding, SendState.inOrder] using h.exact hd
    · cases he

theorem sendFifo_of_reach (h : Reach sendStep Any (sendState₀ : SendState Tid Buf) s) : ∃ w, SendFifo s w :=
  Reach.inv (P := fun s => ∃ w, SendFifo s w) h ⟨_, sendFifo₀⟩ (fun _ _ _ _ ⟨_, hI⟩ he _ => sendStep_fifo hI he)

/-- Nothing is posted twice and nothing overtakes. -/
theorem posted_sublist (h : Reach sendStep Any (sendState₀ : SendState Tid Buf) s) :
    s.posted.flatten.Sublist s.pushed := by
  obtain ⟨w, hI⟩ := sendFifo_of_reach h
  have hsub : s.posted.flatten.Sublist (s.inOrder (s.inHand w)) :=
    (List.sublist_append_left _ _).trans (List.sublist_append_left _ _)
  exact hsub.trans hI.sub

/-- What is posted is what was pushed first, while no batch was dropped. -/
theorem posted_first_of_dropped (h : Reach sendStep Any (sendState₀ : SendState Tid Buf) s) (hd : s.dropped = []) :
    s.posted.flatten <+: s.pushed := by
  obtain ⟨w, hI⟩ := sendFifo_of_reach h
  rw [hI.exact hd, SendState.inOrder, List.append_assoc]
  exact List.prefix_append _ _

/-- **The posted batches are a subsequence of what was pushed**, in every run, whatever `WSASend` answers: nothing is
posted twice and nothing overtakes.  While no batch was dropped they are the buffers pushed first, and together with
the batch in hand and the queue they are everything. -/
theorem send_order (h : Reach sendStep Any (sendState₀ : SendState Tid Buf) s) :
    s.posted.flatten.Sublist s.pushed ∧
    (s.dropped = [] → s.posted.flatten <+: s.pushed) ∧
    (SendIdle s → s.dropped = [] → s.pushed = s.posted.flatten ++ s.sendQueue) := by
  obtain ⟨w, hI⟩ := sendFifo_of_reach h
  refine ⟨posted_sublist h, posted_first_of_dropped h, fun hidle hd => ?_⟩
  have hhand : s.inHand w = [] := by
    cases w with
    | nowhere => rfl
    | flight => rfl
    | thread t =>
      have := (hI.solo t).2 rfl
      rw [hidle t] at this
      cases this
  rw [hI.exact hd, SendState.inOrder, hhand, List.append_nil]

/-- Buffer 7 is dropped, and then a third send posts 8 and 9. -/
theorem send_order_failed : ∃ s, run sendStep Any (sendState₀ : SendState Two Nat)
    (failedSend ++ .send .one 9 :: List.replicate 4 (.next .one .success)) = some s ∧
    s.dropped = [[7]] ∧ s.posted = [[8, 9]] ∧ s.posted.flatten.Sublist s.pushed := by
  obtain ⟨s, hrun, hr⟩ := reach_of_run sendStep Any (sendState₀ : SendState Two Nat)
    (failedSend ++ .send .one 9 :: List.replicate 4 (.next .one .success)) (by decide)
  have hs : (run sendStep Any (sendState₀ : SendState Two Nat)
      (failedSend ++ .send .one 9 :: List.replicate 4 (.next .one .success))).map (fun s => (s.dropped, s.posted)) =
      some ([[7]], [[8, 9]]) := rfl
  simp only [hrun, Option.map_some, Option.some.injEq, Prod.mk.injEq] at hs
  exact ⟨s, hrun, hs.1, hs.2, (send_order hr).1⟩

/-! ## Coming to rest -/

/-- Nobody calls `Send` or `Disconnect` any more: the threads inside go on, and completions are taken. -/
def NoNewCalls (_ : SendState Tid Buf) (a : SendAct Tid Buf) (_ : SendState Tid Buf) : Prop :=
  match a with
  | .next _ _ | .complete _ _ _ => True
  | .send _ _ | .disconnect => False

/-- How much a thread still has to do. -/
def SendPc.weight : SendPc Buf → Nat
  | .idle => 0
  | .processUnlock => 1
  | .registerDrain _ => 3
  | .registerCheck _ => 4
  | .processEmpty => 5
  | .processLock => 6
  | .processCheck _ => 7
  | .processClear _ => 8
  | .registerReset _ => 9
  | .registerError _ _ => 10
  | .registerPost _ => 11
  | .sendPush _ => 15

theorem weight_leave (locked : Bool) : (if locked = true then .processUnlock else .idle : SendPc Buf).weight ≤ 1 := by
  cases locked <;> simp [SendPc.weight]

variable [Fintype Tid]

/-- What is still to be done: a queued buffer costs a `RegisterSend`, and an outstanding send a `ProcessSend`. -/
def SendState.work (s : SendState Tid Buf) : Nat :=
  tally SendPc.weight s.pcs + 10 * s.sendQueue.length + 9 * s.outstanding.length

/-- Thread `t` goes on to `pc`, and the queue and the outstanding sends change by no more than it saves. -/
theorem work_goto {t : Tid} {s₁ : SendState Tid Buf} {pc : SendPc Buf} (hpcs : s₁.pcs = s.pcs)
    (hlt : pc.weight + 10 * s₁.sendQueue.length + 9 * s₁.outstanding.length <
      (s.pcs t).weight + 10 * s.sendQueue.length + 9 * s.outstanding.length) : (s₁.goto t pc).work < s.work := by
  have := tally_update SendPc.weight s.pcs t pc
  unfold SendState.work
  simp only [SendState.goto, hpcs]
  omega

theorem work_leave {t : Tid} {s₁ : SendState Tid Buf} {locked : Bool} (hpcs : s₁.pcs = s.pcs)
    (hlt : 1 + 10 * s₁.sendQueue.length + 9 * s₁.outstanding.length <
      (s.pcs t).weight + 10 * s.sendQueue.length + 9 * s.outstanding.length) : (s₁.leave t locked).work < s.work := by
  have hle : (if locked = true then .processUnlock else .idle : SendPc Buf).weight ≤ 1 := weight_leave locked
  exact work_goto hpcs (by omega)

/-- **Every step brings the work down.** -/
theorem work_next (h : SendFifo s w) {t : Tid} {wsaSend : WsaResult} {s' : SendState Tid Buf}
    (he : s.next t wsaSend = some s') : s'.work < s.work := by
  unfold SendState.next at he
  cases hpc : (s.pcs t) <;> simp only [hpc] at he
  case idle => cases he
  case sendPush b =>
    split at he <;> cases he
    split
    · refine work_goto rfl ?_
      simp only [hpc, SendPc.weight, List.length_append, List.length_singleton]
      omega
    · refine work_goto rfl ?_
      simp only [hpc, SendPc.weight, List.length_append, List.length_singleton]
      omega
  case registerCheck locked =>
    split at he <;> cases he
    · exact work_leave rfl (by simp only [hpc, SendPc.weight]; omega)
    · exact work_goto rfl (by simp only [hpc, SendPc.weight]; omega)
  case registerDrain locked =>
    -- the queue that is drained is not empty
    have htok : w = .thread t := (h.solo t).1 (by rw [hpc]; rfl)
    subst htok
    have hhas := h.carried.2.2
    rw [hpc] at hhas
    have hlen := List.length_pos_iff.2 hhas.2
    split at he <;> cases he
    refine work_goto rfl ?_
    simp only [hpc, SendPc.weight, List.length_nil]
    omega
  case registerPost locked =>
    split at he <;> cases he
    · refine work_leave rfl ?_
      simp only [hpc, SendPc.weight, List.length_append, List.length_singleton]
      omega
    · exact work_goto rfl (by simp only [hpc, SendPc.weight]; omega)
  case registerError locked errorCode =>
    split at he <;> cases he
    · exact work_goto rfl (by simp only [hpc, SendPc.weight]; omega)
    · exact work_goto rfl (by simp only [hpc, SendPc.weight]; omega)
  case registerReset locked =>
    cases he
    exact work_leave rfl (by simp only [hpc, SendPc.weight]; omega)
  case processClear n =>
    cases he
    exact work_goto rfl (by simp only [hpc, SendPc.weight]; omega)
  case processCheck n =>
    split at he <;> cases he
    · exact work_goto rfl (by simp only [hpc, SendPc.weight]; omega)
    · exact work_goto rfl (by simp only [hpc, SendPc.weight]; omega)
  case processLock =>
    split at he <;> cases he
    exact work_goto rfl (by simp only [hpc, SendPc.weight]; omega)
  case processEmpty =>
    split at he <;> cases he
    · exact work_goto rfl (by simp only [hpc, SendPc.weight]; omega)
    · exact work_goto rfl (by simp only [hpc, SendPc.weight]; omega)
  case processUnlock =>
    cases he
    exact work_goto rfl (by simp only [hpc, SendPc.weight]; omega)

theorem work_step (h : SendFifo s w) {a : SendAct Tid Buf} {s' : SendState Tid Buf} (he : sendStep s a = some s')
    (hok : NoNewCalls s a s') : s'.work < s.work := by
  cases a with
  | send t b => exact absurd hok id
  | disconnect => exact absurd hok id
  | next t wsaSend => exact work_next h he
  | complete t i n =>
    simp only [sendStep] at he
    split at he
    · rename_i hpc
      split at he <;> cases he
      rename_i hi
      refine work_goto rfl ?_
      simp only [hpc, SendPc.weight, List.length_eraseIdx_of_lt hi]
      omega
    · cases he

omit [Fintype Tid] in
/-- **A thread that is inside can go on**, unless another one has the lock, and that one can. -/
theorem idle_of_no_next (hlock : LockHeld s) (hno : ∀ t, s.next t .success = none) : SendIdle s ∧ s.lock = none := by
  have hfree : s.lock = none := by
    cases hl : s.lock with
    | none => rfl
    | some u =>
      have hhas := hlock u hl
      have hu := hno u
      unfold SendState.next at hu
      cases hpc : s.pcs u <;> simp only [hpc, SendPc.hasLock, Bool.false_eq_true] at hhas hu
      case registerDrain locked =>
        rw [if_pos (.inl hhas)] at hu
        cases hu
      all_goals first
        | cases hu
        | (split at hu <;> cases hu)
  refine ⟨fun t => ?_, hfree⟩
  have ht := hno t
  unfold SendState.next at ht
  cases hpc : s.pcs t <;> simp only [hpc, hfree, if_true, or_true] at ht
  all_goals first
    | rfl
    | cases ht
    | (split at ht <;> cases ht)

/-- What holds when nothing is left to do. -/
structure SendRest (s : SendState Tid Buf) : Prop where
  idle : SendIdle s
  unlocked : s.lock = none
  outstanding : s.outstanding = []

omit [DecidableEq Tid] [Fintype Tid] in
/-- At rest everything pushed was posted. -/
theorem SendInv.posted_all (h : SendInv s w) (hrest : SendRest s) (hc : s.connected = true) :
    s.sendQueue = [] ∧ s.posted.flatten = s.pushed := by
  obtain ⟨hpushed, hq⟩ := h.idle hrest.idle hc
  rcases hq with hq | ⟨hout, -⟩
  · exact ⟨hq, by rw [hpushed, hq, List.append_nil]⟩
  · rw [hrest.outstanding] at hout
    cases hout

omit [Fintype Tid] in
theorem rest_of_stuck [Nonempty Tid] (hlock : LockHeld s)
    {ok : SendState Tid Buf → SendAct Tid Buf → SendState Tid Buf → Prop}
    (hnext : ∀ s t s', ok s (.next t .success) s') (hcomplete : ∀ s t i n s', ok s (.complete t i n) s')
    (h : Stuck sendStep ok s) : SendRest s := by
  obtain ⟨hidle, hfree⟩ := idle_of_no_next hlock (fun t => by
    cases hs : s.next t .success with
    | none => rfl
    | some s' => exact absurd (hnext s t s') (h (.next t .success) s' hs))
  refine ⟨hidle, hfree, ?_⟩
  by_contra hout
  obtain ⟨t⟩ := ‹Nonempty Tid›
  have hlen := List.length_pos_iff.2 hout
  have he : sendStep s (.complete t 0 1) =
      some ({ s with outstanding := s.outstanding.eraseIdx 0 }.goto t (.processClear 1)) := by
    simp only [sendStep, hidle t, if_pos hlen]
  exact h _ _ he (hcomplete s t 0 1 _)

/-- The steps that are left when nobody calls `Send` or `Disconnect` any more, and only a lost connection fails. -/
def Settling (s : SendState Tid Buf) (a : SendAct Tid Buf) (s' : SendState Tid Buf) : Prop :=
  NoNewCalls s a s' ∧ FailsWhenClosing s a s'

/-- **The send path comes to rest.**  From every state of a run in which a `WSASend` that fails has lost the connection,
once nobody calls `Send` or `Disconnect` any more, every order of the remaining steps and completions comes to an end;
then no thread is inside, the lock is free and no send is outstanding, and while the session is connected every buffer
pushed was posted, in order. -/
theorem send_quiesces [Nonempty Tid] (h : SendReach s) :
    Ends sendStep Settling (fun s => SendRest s ∧ (s.connected = true → s.sendQueue = [] ∧ s.posted.flatten = s.pushed))
      s := by
  refine Ends.of_measure (I := SendReach) (r := (· < ·)) wellFounded_lt SendState.work ?_ ?_ ?_ h
  · exact fun s a s' hr he hok => hr.next he hok.2
  · intro s a s' hr he hok
    obtain ⟨w, hI⟩ := sendFifo_of_reach (hr.mono (fun _ _ _ _ => trivial))
    exact work_step hI he hok.1
  · intro s hr hstuck
    have hrest : SendRest s := rest_of_stuck hr.lockHeld (fun _ _ _ => ⟨trivial, fun _ _ _ he => by cases he⟩)
      (fun _ _ _ _ _ => ⟨trivial, trivial⟩) hstuck
    obtain ⟨w, hI⟩ := hr.inv
    exact ⟨hrest, hI.posted_all hrest⟩

/-- Buffer 7 is posted and buffer 8 pushed behind it: wherever the run stops, both were posted. -/
theorem send_quiesces_two : ∃ s, run sendStep FailsWhenClosing (sendState₀ : SendState Two Nat)
    (twoSends.take 6 ++ [.next .two .success]) = some s ∧ s.sendQueue = [8] ∧
    ∀ s', Reach sendStep Settling s s' → Stuck sendStep Settling s' → s'.connected = true →
      s'.posted.flatten = s'.pushed := by
  obtain ⟨s, hrun, hr⟩ := reach_of_run sendStep FailsWhenClosing (sendState₀ : SendState Two Nat)
    (twoSends.take 6 ++ [.next .two .success]) (by decide)
  have hs : (run sendStep FailsWhenClosing (sendState₀ : SendState Two Nat)
      (twoSends.take 6 ++ [.next .two .success])).map (·.sendQueue) = some [8] := by decide
  simp only [hrun, Option.map_some, Option.some.injEq] at hs
  have : Nonempty Two := ⟨.one⟩
  exact ⟨s, hrun, hs, fun s' hreach hstuck hc => (((send_quiesces hr).stuck hreach hstuck).2 hc).2⟩

end Geon
