import GeonServer.SendPath
/-!
# SendRun — one send at a time, in the order of the queue

In every interleaving the token of a session's send path is in one place (`SendInv`), so at most one `WSASend` is
outstanding, its event is left alone until the completion, and the posted batches are the queue's order cut into
pieces (`send_path_safe`).  A `WSASend` that fails at once and does not make `HandleError` disconnect breaks this: its
batch is dropped (`send_loses_buffer`).
-/
namespace Geon

open Lts Function

variable {Tid Buf : Type*} [DecidableEq Tid]

/-! ## Where the token is -/

/-- The token is with this thread: it is inside `RegisterSend` or in the part of `ProcessSend` that comes before. -/
def SendPc.token : SendPc Buf → Bool
  | .idle | .sendPush _ | .processUnlock => false
  | _ => true

def SendPc.holding : SendPc Buf → Bool
  | .registerPost _ | .registerError _ _ | .registerReset _ => true
  | _ => false

/-- The token of a session's send path. -/
inductive SendWhere (Tid : Type*)
  | nowhere
  | thread (t : Tid)
  | flight
  deriving DecidableEq

namespace SendState

/-- What the session looks like to the thread that has the token, by where the thread is. -/
def PcOk (s : SendState Tid Buf) : SendPc Buf → Prop
  | .registerCheck _ | .registerDrain _ => s.sendEvent.sendBuffers = [] ∧ s.sendQueue ≠ []
  | .registerPost _ => s.sendEvent.sendBuffers ≠ []
  | .registerError _ errorCode =>
    s.sendEvent.sendBuffers ≠ [] ∧ (s.connected = true → handleError errorCode ≠ none)
  | .registerReset _ => s.sendEvent.sendBuffers ≠ [] ∧ s.connected = false
  | .processCheck _ | .processLock | .processEmpty => s.sendEvent.sendBuffers = []
  | _ => True

/-- What the session looks like with the token in a place. -/
def Placed (s : SendState Tid Buf) : SendWhere Tid → Prop
  | .nowhere => s.outstanding = [] ∧ s.sendEvent.sendBuffers = [] ∧
      (s.connected = true → s.sendRegistered = false ∧ s.sendQueue = [])
  | .thread t => s.outstanding = [] ∧ s.sendRegistered = true ∧ s.PcOk (s.pcs t)
  | .flight => s.outstanding = [s.sendEvent.sendBuffers] ∧ s.sendRegistered = true

/-- The batch that has left the queue and is not posted yet. -/
def inHand (s : SendState Tid Buf) : SendWhere Tid → List Buf
  | .thread t => if (s.pcs t).holding then s.sendEvent.sendBuffers else []
  | _ => []

end SendState

/-- **The invariant of the send path**, with the token at `w`. -/
structure SendInv (s : SendState Tid Buf) (w : SendWhere Tid) : Prop where
  solo : ∀ t, (s.pcs t).token = true ↔ w = .thread t
  placed : s.Placed w
  order : s.dropped = [] → s.pushed = s.posted.flatten ++ s.inHand w ++ s.sendQueue
  kept : s.connected = true → s.dropped = []
  nonempty : ∀ batch ∈ s.posted, batch ≠ []

def SendPc.posting : SendPc Buf → Bool
  | .registerPost _ => true
  | _ => false

/-- A `WSASend` that fails at once has lost the connection: `HandleError` knows its code, or the session is
disconnected already. -/
def FailsWhenClosing (s : SendState Tid Buf) (a : SendAct Tid Buf) (_ : SendState Tid Buf) : Prop :=
  match a with
  | .next t wsaSend => (s.pcs t).posting = true → s.connected = true →
      ∀ errorCode ∈ wsaSend.failed, handleError errorCode ≠ none
  | _ => True

def NeverFails (s : SendState Tid Buf) (a : SendAct Tid Buf) (_ : SendState Tid Buf) : Prop :=
  match a with
  | .next t wsaSend => (s.pcs t).posting = true → wsaSend.failed = none
  | _ => True

instance (s : SendState Tid Buf) (a : SendAct Tid Buf) (s' : SendState Tid Buf) :
    Decidable (FailsWhenClosing s a s') :=
  match a with
  | .next _ _ => inferInstanceAs (Decidable (_ → _))
  | .send _ _ | .complete _ _ _ | .disconnect => .isTrue trivial

instance (s : SendState Tid Buf) (a : SendAct Tid Buf) (s' : SendState Tid Buf) : Decidable (NeverFails s a s') :=
  match a with
  | .next _ _ => inferInstanceAs (Decidable (_ → _))
  | .send _ _ | .complete _ _ _ | .disconnect => .isTrue trivial

omit [DecidableEq Tid] in
theorem NeverFails.closing {s s' : SendState Tid Buf} {a : SendAct Tid Buf} (h : NeverFails s a s') :
    FailsWhenClosing s a s' := by
  cases a with
  | next t wsaSend =>
    intro hp _ errorCode he
    rw [h hp] at he
    cases he
  | send | complete | disconnect => trivial

omit [DecidableEq Tid] in
theorem sendInv₀ : SendInv (sendState₀ : SendState Tid Buf) .nowhere where
  solo t := by simp [sendState₀, SendPc.token]
  placed := ⟨rfl, rfl, fun _ => ⟨rfl, rfl⟩⟩
  order _ := rfl
  kept _ := rfl
  nonempty := by simp [sendState₀]

variable {s : SendState Tid Buf} {w : SendWhere Tid}

/-! ## Moving the token -/

omit [DecidableEq Tid] in
theorem solo_free {pcs : Tid → SendPc Buf} (h : ∀ u, (pcs u).token = true ↔ w = .thread u) {t : Tid}
    (hw : w ≠ .thread t) : (pcs t).token = false :=
  Bool.eq_false_iff.2 (mt (h t).1 hw)

omit [DecidableEq Tid] in
theorem solo_others {pcs : Tid → SendPc Buf} {t u : Tid} (h : ∀ v, (pcs v).token = true ↔ SendWhere.thread t = .thread v)
    (hu : u ≠ t) : (pcs u).token = false :=
  solo_free h (fun hw => hu (SendWhere.thread.inj hw).symm)

omit [DecidableEq Tid] in
theorem solo_ne {pcs : Tid → SendPc Buf} {t u : Tid} (h : ∀ v, (pcs v).token = true ↔ SendWhere.thread u = .thread v)
    (ht : (pcs t).token = false) : u ≠ t := by
  rintro rfl
  rw [(h u).2 rfl] at ht
  cases ht

theorem solo_pass {pcs : Tid → SendPc Buf} (h : ∀ u, (pcs u).token = true ↔ w = .thread u) {t : Tid}
    {pc : SendPc Buf} (ht : (pcs t).token = false) (hpc : pc.token = false) :
    ∀ u, (update pcs t pc u).token = true ↔ w = .thread u := by
  rw [forall_update_iff pcs (p := fun u pc => pc.token = true ↔ w = .thread u)]
  exact ⟨by rw [← h t, hpc, ht], fun u _ => h u⟩

theorem solo_keep {pcs : Tid → SendPc Buf} {t : Tid} (h : ∀ u, u ≠ t → (pcs u).token = false)
    {pc : SendPc Buf} (hpc : pc.token = true) :
    ∀ u, (update pcs t pc u).token = true ↔ (SendWhere.thread t) = .thread u := by
  rw [forall_update_iff pcs (p := fun u pc => pc.token = true ↔ SendWhere.thread t = .thread u)]
  exact ⟨by simp [hpc], fun u hu => by simp [h u hu, Ne.symm hu]⟩

theorem solo_drop {pcs : Tid → SendPc Buf} {t : Tid} (h : ∀ u, u ≠ t → (pcs u).token = false)
    {pc : SendPc Buf} (hpc : pc.token = false) (hw : ∀ u, w ≠ .thread u) :
    ∀ u, (update pcs t pc u).token = true ↔ w = .thread u := by
  rw [forall_update_iff pcs (p := fun u pc => pc.token = true ↔ w = .thread u)]
  exact ⟨by simp [hpc, hw t], fun u hu => by simp [h u hu, hw u]⟩

/-! ## The steps of a thread without the token -/

/-- **A step beside the token**: it moves between places without it, and touches nothing but the lock. -/
theorem SendInv.pass (h : SendInv s w) {t : Tid} {pc : SendPc Buf} (ht : (s.pcs t).token = false)
    (hpc : pc.token = false) (lock : Option Tid) : SendInv ({ s with lock := lock }.goto t pc) w := by
  refine ⟨solo_pass h.solo ht hpc, ?_, ?_, h.kept, h.nonempty⟩
  · cases w with
    | nowhere => exact h.placed
    | flight => exact h.placed
    | thread u =>
      have hu := solo_ne h.solo ht
      obtain ⟨ho, hr, hpc⟩ := h.placed
      refine ⟨ho, hr, ?_⟩
      simp only [SendState.goto, update_of_ne hu]
      exact hpc
  · cases w with
    | nowhere => exact h.order
    | flight => exact h.order
    | thread u =>
      have hu := solo_ne h.solo ht
      simpa only [SendState.goto, SendState.inHand, update_of_ne hu] using h.order

omit [DecidableEq Tid] in
theorem SendState.PcOk.disconnect {pc : SendPc Buf} (h : s.PcOk pc) :
    SendState.PcOk { s with connected := false } pc := by
  cases pc <;> first | exact h | exact ⟨h.1, fun hc => by cases hc⟩ | exact ⟨h.1, rfl⟩

omit [DecidableEq Tid] in
theorem SendInv.disconnect (h : SendInv s w) : SendInv { s with connected := false } w := by
  refine ⟨h.solo, ?_, h.order, (fun hc => by cases hc), h.nonempty⟩
  cases w with
  | nowhere => exact ⟨h.placed.1, h.placed.2.1, fun hc => by cases hc⟩
  | flight => exact h.placed
  | thread t => exact ⟨h.placed.1, h.placed.2.1, h.placed.2.2.disconnect⟩

/-- **A buffer enters the queue**, and the token stays where it is: `_sendRegistered` was set. -/
theorem SendInv.push (h : SendInv s w) {t : Tid} (ht : (s.pcs t).token = false) (hr : s.sendRegistered = true)
    (b : Buf) :
    SendInv ({ s with
      sendQueue := s.sendQueue ++ [b], sendRegistered := true, pushed := s.pushed ++ [b] }.goto t .idle) w := by
  have hord : s.dropped = [] → s.pushed ++ [b] = s.posted.flatten ++ s.inHand w ++ (s.sendQueue ++ [b]) :=
    fun hd => by rw [h.order hd]; simp
  refine ⟨solo_pass h.solo ht rfl, ?_, ?_, h.kept, h.nonempty⟩
  · cases w with
    | nowhere => exact ⟨h.placed.1, h.placed.2.1, fun hc => absurd (h.placed.2.2 hc).1 (by simp [hr])⟩
    | flight => exact ⟨h.placed.1, rfl⟩
    | thread u =>
      have hu := solo_ne h.solo ht
      obtain ⟨ho, -, hpc⟩ := h.placed
      refine ⟨ho, rfl, ?_⟩
      simp only [SendState.goto, update_of_ne hu]
      generalize s.pcs u = pc at hpc
      cases pc <;> first | exact hpc | exact ⟨hpc.1, by simp⟩
  · cases w with
    | nowhere => exact hord
    | flight => exact hord
    | thread u =>
      have hu := solo_ne h.solo ht
      simpa only [SendState.goto, SendState.inHand, update_of_ne hu] using hord

/-- **A buffer enters the queue and the token comes into being**: `_sendRegistered` was not set, so it was nowhere. -/
theorem SendInv.pushFirst (h : SendInv s w) (t : Tid) (hr : s.sendRegistered = false)
    (b : Buf) :
    SendInv ({ s with
      sendQueue := s.sendQueue ++ [b], sendRegistered := true, pushed := s.pushed ++ [b]
      }.goto t (.registerCheck false)) (.thread t) := by
  cases w with
  | flight => exact absurd h.placed.2 (by simp [hr])
  | thread u => exact absurd h.placed.2.1 (by simp [hr])
  | nowhere =>
    obtain ⟨ho, hb, -⟩ := h.placed
    have hno : ∀ u, u ≠ t → (s.pcs u).token = false := fun u _ => solo_free h.solo (by simp)
    refine ⟨solo_keep hno rfl, ⟨ho, rfl, ?_⟩, fun hd => ?_, h.kept, h.nonempty⟩
    · simp only [SendState.goto, update_self]
      exact ⟨hb, by simp⟩
    · have := h.order hd
      simp only [SendState.inHand, List.append_nil] at this
      simp [SendState.goto, SendState.inHand, SendPc.holding, this]

/-! ## The steps of the thread with the token -/

theorem SendInv.keep {t : Tid} (h : SendInv s (.thread t)) {s₁ : SendState Tid Buf} {pc : SendPc Buf}
    (hpcs : s₁.pcs = s.pcs) (hpc : pc.token = true) (ho : s₁.outstanding = []) (hr : s₁.sendRegistered = true)
    (hok : s₁.PcOk pc)
    (hord : s₁.dropped = [] → s₁.pushed =
      s₁.posted.flatten ++ (if pc.holding then s₁.sendEvent.sendBuffers else []) ++ s₁.sendQueue)
    (hk : s₁.connected = true → s₁.dropped = []) (hn : ∀ batch ∈ s₁.posted, batch ≠ []) :
    SendInv (s₁.goto t pc) (.thread t) := by
  refine ⟨solo_keep (fun u hu => by rw [hpcs]; exact solo_others h.solo hu) hpc, ⟨ho, hr, ?_⟩, fun hd => ?_, hk, hn⟩
  · simp only [SendState.goto, update_self]
    exact hok
  · simp only [SendState.goto, SendState.inHand, update_self]
    exact hord hd

theorem SendInv.give {t : Tid} (h : SendInv s (.thread t)) {s₁ : SendState Tid Buf} {pc : SendPc Buf}
    (hpcs : s₁.pcs = s.pcs) (hpc : pc.token = false) (hw : ∀ u, w ≠ .thread u) (hp : s₁.Placed w)
    (hord : s₁.dropped = [] → s₁.pushed = s₁.posted.flatten ++ s₁.sendQueue)
    (hk : s₁.connected = true → s₁.dropped = []) (hn : ∀ batch ∈ s₁.posted, batch ≠ []) :
    SendInv (s₁.goto t pc) w := by
  refine ⟨solo_drop (fun u hu => by rw [hpcs]; exact solo_others h.solo hu) hpc hw, ?_, fun hd => ?_, hk, hn⟩
  · cases w with
    | thread u => exact absurd rfl (hw u)
    | nowhere => exact hp
    | flight => exact hp
  · have : (s₁.goto t pc).inHand w = [] := by
      cases w with
      | thread u => exact absurd rfl (hw u)
      | nowhere => rfl
      | flight => rfl
    rw [this, List.append_nil]
    exact hord hd

theorem token_leave (locked : Bool) : (if locked = true then .processUnlock else .idle : SendPc Buf).token = false := by
  cases locked <;> rfl

/-- **Without the token** a thread pushes a buffer or unlocks. -/
theorem next_without_token {t : Tid} {wsaSend : WsaResult} {s' : SendState Tid Buf} (htok : (s.pcs t).token = false)
    (he : s.next t wsaSend = some s') :
    (∃ b s₁, s.pcs t = .sendPush b ∧ s₁ = { s with
        sendQueue := s.sendQueue ++ [b], sendRegistered := true, pushed := s.pushed ++ [b] } ∧
        s' = if s.sendRegistered = false then s₁.goto t (.registerCheck false) else s₁.goto t .idle) ∨
      s.pcs t = .processUnlock ∧ s' = { s with lock := none }.goto t .idle := by
  unfold SendState.next at he
  cases hpc : s.pcs t <;> simp only [hpc] at he
  case idle => cases he
  case sendPush b =>
    split at he <;> cases he
    exact .inl ⟨b, _, rfl, rfl, rfl⟩
  case processUnlock =>
    cases he
    exact .inr ⟨rfl, rfl⟩
  all_goals rw [hpc] at htok; cases htok

/-- **A thread inside the sending code takes a step**: the token stays, moves on or goes. -/
theorem SendInv.next (h : SendInv s w) {t : Tid} {wsaSend : WsaResult} {s' : SendState Tid Buf}
    (he : s.next t wsaSend = some s')
    (hok : FailsWhenClosing s (.next t wsaSend) s') : ∃ w', SendInv s' w' := by
  by_cases htok : (s.pcs t).token = true
  case neg =>
    rw [Bool.not_eq_true] at htok
    obtain ⟨b, _, -, rfl, rfl⟩ | ⟨-, rfl⟩ := next_without_token htok he
    · split
      · exact ⟨_, h.pushFirst t ‹_› b⟩
      · rename_i hr
        exact ⟨w, h.push htok (by simpa using hr) b⟩
    · exact ⟨w, h.pass htok rfl none⟩
  case pos =>
    obtain rfl := (h.solo t).1 htok
    obtain ⟨ho, hr, hat⟩ := h.placed
    have hord := h.order
    simp only [SendState.inHand] at hord
    have hk := h.kept
    have hn := h.nonempty
    unfold SendState.next at he
    simp only [FailsWhenClosing] at hok
    cases hpc : (s.pcs t) <;>
      simp only [hpc, SendPc.holding, if_true, Bool.false_eq_true, if_false] at he hat hord hok
    case idle => cases he
    case sendPush => rw [hpc] at htok; cases htok
    case processUnlock => rw [hpc] at htok; cases htok
    case registerCheck locked =>
      split at he <;> cases he
      · rename_i hc
        refine ⟨.nowhere, h.give rfl (token_leave locked) (by simp) ⟨ho, hat.1, ?_⟩ (by simpa using hord) hk hn⟩
        simp [hc]
      · exact ⟨_, h.keep rfl rfl ho hr hat (by simpa [SendPc.holding] using hord) hk hn⟩
    case registerDrain locked =>
      split at he <;> cases he
      refine ⟨_, h.keep rfl rfl ho hr ?_ ?_ hk hn⟩
      · show drain s.sendEvent.sendBuffers s.sendQueue ≠ []
        rw [drain_eq, hat.1]
        exact hat.2
      · simp only [SendPc.holding, if_true, drain_eq, hat.1, List.nil_append, List.append_nil] at hord ⊢
        exact hord
    case registerPost locked =>
      split at he <;> cases he
      · refine ⟨.flight, h.give rfl (token_leave locked) (by simp) ⟨by simp [ho], hr⟩ (by simpa using hord) hk ?_⟩
        intro batch hb
        rcases List.mem_append.1 hb with hb | hb
        · exact hn batch hb
        · rw [List.mem_singleton.1 hb]
          exact hat
      · rename_i errorCode hf
        exact ⟨_, h.keep rfl rfl ho hr ⟨hat, fun hc => hok rfl hc errorCode hf⟩
          (by simpa [SendPc.holding] using hord) hk hn⟩
    case registerError locked errorCode =>
      split at he <;> cases he
      · exact ⟨_, h.keep rfl rfl ho hr ⟨hat.1, rfl⟩ (by simpa [SendPc.holding] using hord) (fun hc => by cases hc) hn⟩
      · rename_i hnone
        have hc : s.connected = false := by
          rw [← Bool.not_eq_true]
          exact fun hc => hat.2 hc hnone
        exact ⟨_, h.keep rfl rfl ho hr ⟨hat.1, hc⟩ (by simpa [SendPc.holding] using hord) hk hn⟩
    case registerReset locked =>
      cases he
      refine ⟨.nowhere, h.give rfl (token_leave locked) (by simp) ⟨ho, rfl, ?_⟩ (fun hd => ?_) (fun hc => ?_) hn⟩
      · simp [hat.2]
      · simp at hd
      · simp [hat.2] at hc
    case processClear n =>
      cases he
      exact ⟨_, h.keep rfl rfl ho hr rfl (by simpa [SendPc.holding] using hord) hk hn⟩
    case processCheck n =>
      split at he <;> cases he
      · refine ⟨.nowhere, h.give rfl rfl (by simp) ⟨ho, hat, ?_⟩ (by simpa using hord) (fun hc => by cases hc) hn⟩
        simp
      · exact ⟨_, h.keep rfl rfl ho hr hat (by simpa [SendPc.holding] using hord) hk hn⟩
    case processLock =>
      split at he <;> cases he
      exact ⟨_, h.keep rfl rfl ho hr hat (by simpa [SendPc.holding] using hord) hk hn⟩
    case processEmpty =>
      split at he <;> cases he
      · rename_i hq
        refine ⟨.nowhere, h.give rfl rfl (by simp) ⟨ho, hat, fun _ => ⟨rfl, hq⟩⟩ (by simpa using hord) hk hn⟩
      · rename_i hq
        exact ⟨_, h.keep rfl rfl ho hr ⟨hat, by simp [hq]⟩ (by simpa [SendPc.holding] using hord) hk hn⟩

/-- **The step lemma of the send path.** -/
theorem sendStep_inv (h : SendInv s w) {a : SendAct Tid Buf} {s' : SendState Tid Buf} (he : sendStep s a = some s')
    (hok : FailsWhenClosing s a s') : ∃ w', SendInv s' w' := by
  cases a with
  | next t wsaSend => exact h.next he hok
  | disconnect =>
    cases he
    exact ⟨w, h.disconnect⟩
  | send t b =>
    simp only [sendStep] at he
    split at he <;> cases he
    rename_i hpc
    split
    · exact ⟨w, h⟩
    · exact ⟨w, h.pass (by rw [hpc]; rfl) rfl s.lock⟩
  | complete t i n =>
    simp only [sendStep] at he
    split at he
    · rename_i hpc
      split at he <;> cases he
      rename_i hi
      cases w with
      | nowhere =>
        rw [h.placed.1] at hi
        simp at hi
      | thread u =>
        rw [h.placed.1] at hi
        simp at hi
      | flight =>
        have hno : ∀ u, u ≠ t → (s.pcs u).token = false := fun u _ => solo_free h.solo (by simp)
        obtain ⟨ho, hr⟩ := h.placed
        have hi0 : i = 0 := by
          rw [ho] at hi
          simpa using hi
        refine ⟨.thread t, solo_keep hno rfl, ⟨?_, hr, ?_⟩, fun hd => ?_, h.kept, h.nonempty⟩
        · simp [SendState.goto, ho, hi0]
        · simp only [SendState.goto, update_self, SendState.PcOk]
        · have := h.order hd
          simpa [SendState.goto, SendState.inHand, SendPc.holding] using this
    · cases he

/-! ## The lock -/

/-- The thread is inside the `WRITE_LOCK` section of `ProcessSend`. -/
def SendPc.hasLock : SendPc Buf → Bool
  | .registerCheck locked | .registerDrain locked | .registerPost locked | .registerError locked _
  | .registerReset locked => locked
  | .processEmpty | .processUnlock => true
  | _ => false

/-- Whoever the lock says has it is inside the section. -/
def LockHeld (s : SendState Tid Buf) : Prop := ∀ t, s.lock = some t → (s.pcs t).hasLock = true

theorem hasLock_leave (locked : Bool) :
    (if locked = true then .processUnlock else .idle : SendPc Buf).hasLock = locked := by
  cases locked <;> rfl

theorem lockHeld_update {lock : Option Tid} {pcs : Tid → SendPc Buf}
    (h : ∀ t, lock = some t → (pcs t).hasLock = true) {t : Tid} {pc : SendPc Buf}
    (hpc : lock = some t → (pcs t).hasLock = true → pc.hasLock = true) :
    ∀ u, lock = some u → (update pcs t pc u).hasLock = true := by
  rw [forall_update_iff pcs (p := fun u pc => lock = some u → pc.hasLock = true)]
  exact ⟨fun hl => hpc hl (h t hl), fun u _ => h u⟩

theorem LockHeld.next (h : LockHeld s) {t : Tid} {wsaSend : WsaResult} {s' : SendState Tid Buf}
    (he : s.next t wsaSend = some s') : LockHeld s' := by
  unfold SendState.next at he
  cases hpc : (s.pcs t) <;> simp only [hpc] at he
  case idle => cases he
  case sendPush b =>
    split at he <;> cases he
    rename_i hfree
    split <;> intro u hu <;> rw [SendState.goto, hfree] at hu <;> cases hu
  case registerCheck locked =>
    split at he <;> cases he
    · exact lockHeld_update h (fun _ hl => (hasLock_leave locked).trans (by rwa [hpc] at hl))
    · exact lockHeld_update h (by simp [hpc, SendPc.hasLock])
  case registerDrain locked =>
    split at he <;> cases he
    exact lockHeld_update h (by simp [hpc, SendPc.hasLock])
  case registerPost locked =>
    split at he <;> cases he
    · exact lockHeld_update h (fun _ hl => (hasLock_leave locked).trans (by rwa [hpc] at hl))
    · exact lockHeld_update h (by simp [hpc, SendPc.hasLock])
  case registerError locked errorCode =>
    split at he <;> cases he <;> exact lockHeld_update h (by simp [hpc, SendPc.hasLock])
  case registerReset locked =>
    cases he
    exact lockHeld_update h (fun _ hl => (hasLock_leave locked).trans (by rwa [hpc] at hl))
  case processClear n =>
    cases he
    exact lockHeld_update h (by simp [hpc, SendPc.hasLock])
  case processCheck n => split at he <;> cases he <;> exact lockHeld_update h (by simp [hpc, SendPc.hasLock])
  case processLock =>
    split at he <;> cases he
    intro u hu
    obtain rfl := Option.some.inj hu
    simp [SendState.goto, SendPc.hasLock]
  case processEmpty => split at he <;> cases he <;> exact lockHeld_update h (by simp [SendPc.hasLock])
  case processUnlock =>
    cases he
    intro u hu
    cases hu

theorem lockHeld_step (h : LockHeld s) {a : SendAct Tid Buf} {s' : SendState Tid Buf}
    (he : sendStep s a = some s') : LockHeld s' := by
  cases a with
  | next t wsaSend => exact h.next he
  | disconnect =>
    cases he
    exact h
  | send t b =>
    simp only [sendStep] at he
    split at he <;> cases he
    rename_i hpc
    split
    · exact h
    · exact lockHeld_update h (by simp [hpc, SendPc.hasLock])
  | complete t i n =>
    simp only [sendStep] at he
    split at he
    · rename_i hpc
      split at he <;> cases he
      exact lockHeld_update h (by simp [hpc, SendPc.hasLock])
    · cases he

/-! ## Runs -/

/-- The states of the runs in which a failing `WSASend` has lost the connection. -/
def SendReach (s : SendState Tid Buf) : Prop := Reach sendStep FailsWhenClosing sendState₀ s

theorem SendReach.inv (h : SendReach s) : ∃ w, SendInv s w :=
  Reach.inv (P := fun s => ∃ w, SendInv s w) h ⟨_, sendInv₀⟩ (fun _ _ _ _ ⟨_, hI⟩ he hok => sendStep_inv hI he hok)

theorem SendReach.lockHeld (h : SendReach s) : LockHeld s :=
  Reach.inv (P := LockHeld) h (fun t ht => by cases ht) (fun _ _ _ _ hI he _ => lockHeld_step hI he)

def SendIdle (s : SendState Tid Buf) : Prop := ∀ t, s.pcs t = .idle

omit [DecidableEq Tid] in
/-- **Nobody is on the way**: while the session is connected, what is queued waits for an outstanding send. -/
theorem SendInv.idle (h : SendInv s w) (hidle : SendIdle s) (hc : s.connected = true) :
    s.pushed = s.posted.flatten ++ s.sendQueue ∧
      (s.sendQueue = [] ∨ s.outstanding = [s.sendEvent.sendBuffers] ∧ s.sendRegistered = true) := by
  have hord := h.order (h.kept hc)
  cases w with
  | nowhere => exact ⟨by simpa [SendState.inHand] using hord, .inl (h.placed.2.2 hc).2⟩
  | flight => exact ⟨by simpa [SendState.inHand] using hord, .inr h.placed⟩
  | thread t =>
    have := (h.solo t).2 rfl
    rw [hidle t] at this
    cases this

/-- **An outstanding send's event is left alone**: no step writes it before the completion is taken. -/
theorem SendInv.event_kept (h : SendInv s w) (ho : s.outstanding ≠ []) {a : SendAct Tid Buf}
    {s' : SendState Tid Buf} (he : sendStep s a = some s') : s'.sendEvent = s.sendEvent := by
  have hflight : w = .flight := by
    cases w with
    | nowhere => exact absurd h.placed.1 ho
    | thread t => exact absurd h.placed.1 ho
    | flight => rfl
  subst hflight
  cases a with
  | disconnect => cases he; rfl
  | send t b =>
    simp only [sendStep] at he
    split at he <;> cases he
    split <;> rfl
  | complete t i n =>
    simp only [sendStep] at he
    split at he
    · split at he <;> cases he
      rfl
    · cases he
  | next t wsaSend =>
    have htok : (s.pcs t).token = false := solo_free h.solo (by simp)
    obtain ⟨b, _, -, rfl, rfl⟩ | ⟨-, rfl⟩ := next_without_token htok he
    · split <;> rfl
    · rfl

/-- The thread has a failed `WSASend` behind it. -/
def SendPc.failing : SendPc Buf → Bool
  | .registerError _ _ | .registerReset _ => true
  | _ => false

theorem not_failing_update {pcs : Tid → SendPc Buf} (h : ∀ u, (pcs u).failing = false) {t : Tid} {pc : SendPc Buf}
    (hpc : pc.failing = false) : ∀ u, (update pcs t pc u).failing = false :=
  (forall_update_iff pcs (p := fun _ pc => pc.failing = false)).2 ⟨hpc, fun u _ => h u⟩

/-- **Without a failure nothing is dropped.** -/
theorem sendStep_dropped {s' : SendState Tid Buf} {a : SendAct Tid Buf}
    (h : s.dropped = [] ∧ ∀ t, (s.pcs t).failing = false) (he : sendStep s a = some s') (hok : NeverFails s a s') :
    s'.dropped = [] ∧ ∀ t, (s'.pcs t).failing = false := by
  obtain ⟨hd, hf⟩ := h
  cases a with
  | disconnect =>
    cases he
    exact ⟨hd, hf⟩
  | send t b =>
    simp only [sendStep] at he
    split at he <;> cases he
    split
    · exact ⟨hd, hf⟩
    · exact ⟨hd, not_failing_update hf rfl⟩
  | complete t i n =>
    simp only [sendStep] at he
    split at he
    · split at he <;> cases he
      exact ⟨hd, not_failing_update hf rfl⟩
    · cases he
  | next t wsaSend =>
    simp only [sendStep, SendState.next] at he
    simp only [NeverFails] at hok
    have hft := hf t
    cases hpc : (s.pcs t) <;> simp only [hpc] at he hok hft
    case idle => cases he
    case registerError => cases hft
    case registerReset => cases hft
    case sendPush b =>
      split at he <;> cases he
      split <;> exact ⟨hd, not_failing_update hf rfl⟩
    case registerPost locked =>
      simp only [hok rfl] at he
      cases he
      exact ⟨hd, not_failing_update hf (by cases locked <;> rfl)⟩
    case registerCheck locked =>
      split at he <;> cases he
      · exact ⟨hd, not_failing_update hf (by cases locked <;> rfl)⟩
      · exact ⟨hd, not_failing_update hf rfl⟩
    all_goals first
      | (cases he; exact ⟨hd, not_failing_update hf rfl⟩)
      | (split at he <;> cases he <;> exact ⟨hd, not_failing_update hf rfl⟩)

/-! ## Safety -/

/-- While no `WSASend` fails at once, nothing is dropped and what is posted was pushed first. -/
theorem posted_first (h : Reach sendStep NeverFails (sendState₀ : SendState Tid Buf) s) :
    s.posted.flatten <+: s.pushed := by
  obtain ⟨w, hI⟩ := SendReach.inv (h.mono (fun _ _ _ hok => hok.closing))
  obtain ⟨hd, -⟩ := Reach.inv (P := fun s => s.dropped = [] ∧ ∀ t, (s.pcs t).failing = false) h
    ⟨rfl, fun _ => rfl⟩ (fun _ _ _ _ hP he hok => sendStep_dropped hP he hok)
  rw [hI.order hd, List.append_assoc]
  exact List.prefix_append _ _

/-- **The send path is safe**: while no `WSASend` fails at once, in every interleaving at most one send is
outstanding; it carries the event's buffers, at least one, and no step touches the event before its completion is
taken; the posted batches are, in order, the buffers pushed first; and when nobody is on the way and the session is
connected, the queue is empty or a send is outstanding. -/
theorem send_path_safe (h : Reach sendStep NeverFails (sendState₀ : SendState Tid Buf) s) :
    s.outstanding.length ≤ 1 ∧
    (∀ batch ∈ s.posted, batch ≠ []) ∧
    (∀ batch ∈ s.outstanding, s.sendEvent.sendBuffers = batch) ∧
    (s.outstanding ≠ [] → ∀ a s', sendStep s a = some s' → s'.sendEvent = s.sendEvent) ∧
    s.posted.flatten <+: s.pushed ∧
    (SendIdle s → s.connected = true → s.sendQueue = [] ∨ s.outstanding ≠ []) := by
  have hreach : SendReach s := h.mono (fun _ _ _ hok => hok.closing)
  obtain ⟨w, hI⟩ := hreach.inv
  refine ⟨?_, hI.nonempty, ?_, fun ho _ _ he => hI.event_kept ho he, posted_first h, fun hidle hc => ?_⟩
  · cases w with
    | nowhere => simp [hI.placed.1]
    | thread t => simp [hI.placed.1]
    | flight => simp [hI.placed.1]
  · intro batch hb
    cases w with
    | nowhere => simp [hI.placed.1] at hb
    | thread t => simp [hI.placed.1] at hb
    | flight =>
      rw [hI.placed.1] at hb
      exact (List.mem_singleton.1 hb).symm
  · rcases (hI.idle hidle hc).2 with hq | ⟨ho, -⟩
    · exact .inl hq
    · exact .inr (by simp [ho])

/-- Thread one sends; thread two sends meanwhile, takes the completion and posts the second batch. -/
def twoSends : List (SendAct Two Nat) :=
  [.send .one 7, .next .one .success, .next .one .success, .send .two 8, .next .one .success,
   .next .one (.socketError WSA_IO_PENDING), .next .two .success, .complete .two 0 4] ++
    List.replicate 8 (.next .two .success)

theorem send_path_safe_two : ∃ s, run sendStep NeverFails (sendState₀ : SendState Two Nat) twoSends = some s ∧
    s.posted = [[7], [8]] ∧ s.posted.flatten <+: s.pushed ∧ s.outstanding.length ≤ 1 := by
  obtain ⟨s, hrun, hr⟩ := reach_of_run sendStep NeverFails (sendState₀ : SendState Two Nat) twoSends (by decide)
  have hposted : (run sendStep NeverFails (sendState₀ : SendState Two Nat) twoSends).map (·.posted) =
      some [[7], [8]] := by decide
  obtain ⟨hle, -, -, -, hprefix, -⟩ := send_path_safe hr
  exact ⟨s, hrun, by simpa [hrun] using hposted, hprefix, hle⟩

/-! ## Failing sends -/

/-- A thread takes the completion of the outstanding send and runs `ProcessSend` to its end. -/
def processSend (Buf : Type*) (t : Tid) (numOfBytes : Nat) : List (SendAct Tid Buf) :=
  .complete t 0 numOfBytes :: List.replicate 8 (.next t .success)

/-- The completion of the outstanding send drains the queue, whichever thread takes it. -/
def Drains (s : SendState Tid Buf) : Prop :=
  ∀ t numOfBytes, numOfBytes ≠ 0 → ∃ s', run sendStep Any s (processSend Buf t numOfBytes) = some s' ∧
    s'.sendQueue = [] ∧ s'.posted = s.posted ++ [s.sendQueue]

/-- Every pushed buffer was posted by a `WSASend` that did not fail, or waits in the queue for an outstanding send. -/
def NoneLost (s : SendState Tid Buf) : Prop :=
  s.pushed.Perm (s.posted.flatten ++ s.sendQueue) ∧
    (s.sendQueue ≠ [] → s.outstanding ≠ [] ∧ s.sendRegistered = true ∧ Drains s)

theorem drains_of_idle (hidle : SendIdle s) (hc : s.connected = true) (hlock : LockHeld s)
    (ho : s.outstanding = [s.sendEvent.sendBuffers]) (hq : s.sendQueue ≠ []) : Drains s := by
  intro t n hn
  have hfree : s.lock = none := by
    cases hl : s.lock with
    | none => rfl
    | some u =>
      have := hlock u hl
      rw [hidle u] at this
      cases this
  obtain ⟨b, q, hbq⟩ := List.exists_cons_of_ne_nil hq
  simp [processSend, List.replicate, run, Any, sendStep, SendState.next, SendState.goto, SendState.leave, hidle t, ho,
    hn, hfree, hc, hbq, drain_eq, WsaResult.failed]

/-- **No accepted buffer is lost or stranded** in the runs in which every `WSASend` that fails at once has lost the
connection. -/
theorem send_none_lost (h : SendReach s) (hidle : SendIdle s) (hc : s.connected = true) : NoneLost s := by
  obtain ⟨w, hI⟩ := h.inv
  obtain ⟨hpushed, hqueue⟩ := hI.idle hidle hc
  refine ⟨by rw [hpushed], fun hq => ?_⟩
  rcases hqueue with h0 | ⟨ho, hr⟩
  · exact absurd h0 hq
  · exact ⟨by simp [ho], hr, drains_of_idle hidle hc h.lockHeld ho hq⟩

theorem send_none_lost_two : ∃ s, run sendStep FailsWhenClosing (sendState₀ : SendState Two Nat)
    (twoSends ++ [.send .one 9, .next .one .success]) = some s ∧ s.sendQueue = [9] ∧ NoneLost s := by
  obtain ⟨s, hrun, hr⟩ := reach_of_run sendStep FailsWhenClosing (sendState₀ : SendState Two Nat)
    (twoSends ++ [.send .one 9, .next .one .success]) (by decide)
  have hs : (run sendStep FailsWhenClosing (sendState₀ : SendState Two Nat)
      (twoSends ++ [.send .one 9, .next .one .success])).map
      (fun s => (s.sendQueue, s.connected, s.pcs .one, s.pcs .two)) =
      some ([9], true, .idle, .idle) := by decide
  simp only [hrun, Option.map_some, Option.some.injEq, Prod.mk.injEq] at hs
  obtain ⟨hq, hc, h0, h1⟩ := hs
  have hidle : SendIdle s := fun t => by
    cases t with
    | one => exact h0
    | two => exact h1
  exact ⟨s, hrun, hq, send_none_lost hr hidle hc⟩

/-- Thread one drains the queue, thread two pushes behind it, and the `WSASend` fails with `WSAENOBUFS`. -/
def failedSend : List (SendAct Two Nat) :=
  [.send .one 7, .next .one .success, .next .one .success, .next .one .success, .send .two 8, .next .two .success,
   .next .one (.socketError 10055), .next .one .success, .next .one .success]

/-- **A failed `WSASend` loses its batch and strands what was pushed meanwhile**: the session stays connected, buffer
7 is gone, and buffer 8 sits in the queue with no send outstanding and `_sendRegistered` clear. -/
theorem send_loses_buffer : ¬ ∀ s : SendState Two Nat, Reach sendStep Any sendState₀ s → SendIdle s →
    s.connected = true → NoneLost s := by
  intro hall
  obtain ⟨s, hrun, hr⟩ := reach_of_run sendStep Any (sendState₀ : SendState Two Nat) failedSend (by decide)
  have hs : (run sendStep Any (sendState₀ : SendState Two Nat) failedSend).map (fun s =>
      (s.connected, s.pushed, s.posted, s.sendQueue, s.outstanding, s.sendRegistered, s.pcs .one, s.pcs .two)) =
      some (true, [7, 8], [], [8], [], false, .idle, .idle) := rfl
  simp only [hrun, Option.map_some, Option.some.injEq, Prod.mk.injEq] at hs
  obtain ⟨hc, hpushed, hposted, hq, ho, hreg, h0, h1⟩ := hs
  have hidle : SendIdle s := fun t => by
    cases t with
    | one => exact h0
    | two => exact h1
  have hlost := (hall s hr hidle hc).1
  rw [hpushed, hposted, hq] at hlost
  exact absurd hlost.length_eq (by decide)

end Geon
