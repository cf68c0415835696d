import GeonServer.ChatOrder
/-!
# ChatHeard — a connected session hears every call

`Send` does nothing on a session that is not connected, so what is queued is a part of the calls.  As long as the
session stays connected it is all of them: each call of a broadcast has been pushed or is with a thread that is about to
push it (`HeardInv`).
-/
namespace Geon

open Lts Function

variable {Tid Sid : Type} [DecidableEq Tid] [DecidableEq Sid]

/-- The buffer is in the session's history of pushes, or with a thread about to push it. -/
def SendState.Coming {Buf : Type*} (s : SendState Tid Buf) (b : Buf) : Prop :=
  b ∈ s.pushed ∨ ∃ t, b ∈ (s.pcs t).entering

/-- **Where a thread is, and what a connected session has heard.** -/
structure HeardInv (c : ChatCore Tid Sid) : Prop where
  busy : ∀ t a, c.sending t = some a → (c.sends a).pcs t ≠ .idle
  heard : ∀ a, (c.sends a).connected = true → ∀ b ∈ callsOn c.sendCalls a, (c.sends a).Coming b

omit [DecidableEq Tid] in
theorem heardInv₀ : HeardInv (chatState₀ : ChatState Tid Sid).core where
  busy _ _ h := by cases h
  heard _ _ b hb := by cases hb

section
variable {Buf : Type} {s s' : SendState Tid Buf} {t : Tid}

/-- A thread's step keeps what is coming. -/
theorem coming_of_next {wsaSend : WsaResult} (he : sendStep s (.next t wsaSend) = some s') {b : Buf} (hb : s.Coming b) :
    s'.Coming b := by
  obtain ⟨hpushed, -, hothers⟩ := sendStep_next he
  rcases hb with hb | ⟨u, hu⟩
  · exact .inl (hpushed ▸ List.mem_append_left _ hb)
  · by_cases hut : u = t
    · subst hut
      exact .inl (hpushed ▸ List.mem_append_right _ hu)
    · exact .inr ⟨u, by rwa [hothers u hut]⟩

theorem coming_of_complete {i numOfBytes : Nat} (he : sendStep s (.complete t i numOfBytes) = some s') {b : Buf}
    (hb : s.Coming b) : s'.Coming b := by
  obtain ⟨hpushed, hidle, -, hothers⟩ := sendStep_complete he
  rcases hb with hb | ⟨u, hu⟩
  · exact .inl (hpushed ▸ hb)
  · have hut : u ≠ t := fun hut => by
      rw [hut, hidle] at hu
      cases hu
    exact .inr ⟨u, by rwa [hothers u hut]⟩

/-- **A call on a connected session is coming.** -/
theorem coming_of_send {b : Buf} (he : sendStep s (.send t b) = some s') (b' : Buf) :
    s'.connected = s.connected ∧ (s.Coming b' → s'.Coming b') ∧ (s.connected = true → s'.Coming b) := by
  simp only [sendStep] at he
  split at he
  · rename_i hidle
    cases he
    split
    · rename_i hc
      exact ⟨rfl, id, fun hc' => by rw [hc] at hc'; cases hc'⟩
    · refine ⟨rfl, fun hb => ?_, fun _ => .inr ⟨t, by simp [SendState.goto, SendPc.entering]⟩⟩
      rcases hb with hb | ⟨u, hu⟩
      · exact .inl hb
      · have hut : u ≠ t := fun hut => by
          rw [hut, hidle] at hu
          cases hu
        exact .inr ⟨u, by simpa only [SendState.goto, update_of_ne hut] using hu⟩
  · cases he

end

/-! ## Every step -/

variable {c c' : ChatCore Tid Sid} {t : Tid}

/-- **Thread `t` steps in the sending code of session `a`.** -/
theorem HeardInv.setSend (h : HeardInv c) {a : Sid} {send : SendState Tid SendBufferRef}
    {calls : List (SendBufferRef × Player Sid)} {body : Tid → JobBody} {n : Nat}
    (hothers : ∀ u, u ≠ t → send.pcs u = (c.sends a).pcs u)
    (hcalls : ∀ b, b ≠ a → callsOn calls b = callsOn c.sendCalls b)
    (hheard : send.connected = true → ∀ b ∈ callsOn calls a, send.Coming b) :
    HeardInv { c.setSend t a send with sendCalls := calls, body := body, numBuffers := n } := by
  refine ⟨fun u b hu => ?_, fun b hc => ?_⟩ <;> simp only [ChatCore.setSend] at *
  · by_cases hut : u = t
    · subst hut
      rw [update_self] at hu
      split at hu
      · cases hu
      · rename_i hidle
        cases hu
        rw [update_self]
        intro heq
        rw [heq] at hidle
        exact hidle rfl
    · rw [update_of_ne hut] at hu
      by_cases hb : b = a
      · subst hb
        rw [update_self, hothers u hut]
        exact h.busy u b hu
      · rw [update_of_ne hb]
        exact h.busy u b hu
  · by_cases hb : b = a
    · subst hb
      rw [update_self] at hc ⊢
      exact hheard hc
    · rw [update_of_ne hb] at hc ⊢
      rw [hcalls b hb]
      exact h.heard b hc

/-- **The step lemma of what is heard.** -/
theorem CoreStep.heard (hstep : CoreStep c c') (h : HeardInv c) : HeardInv c' := by
  cases hstep with
  | outside => exact h
  | push | pop | job | apply | loop | last | finish => exact ⟨h.busy, h.heard⟩
  | @send t a wsaSend send hsending hok he =>
    obtain ⟨-, -, hothers⟩ := sendStep_next he
    exact h.setSend (n := c.numBuffers) hothers (fun _ _ => rfl)
      (fun hc b hb => coming_of_next he (h.heard a (sendStep_connected he hc) b hb))
  | @complete t a i numOfBytes send hbase hsending he =>
    obtain ⟨-, -, -, hothers⟩ := sendStep_complete he
    refine h.setSend (n := c.numBuffers) hothers (fun _ _ => rfl) (fun hc b hb => coming_of_complete he (h.heard a ?_ b hb))
    simp only [sendStep] at he
    split at he
    · split at he <;> cases he
      exact hc
    · cases he
  | @call t a b send hbase hsending hchat he =>
    obtain ⟨-, -, -, hothers⟩ := sendStep_send he
    refine h.setSend hothers (fun _ _ => rfl) (fun hc b' hb' => ?_)
    obtain ⟨hconnected, hkeep, -⟩ := coming_of_send he b'
    exact hkeep (h.heard a (hconnected ▸ hc) b' hb')
  | disconnect a =>
    have hpcs : ∀ b, (update c.sends a { c.sends a with connected := false } b).pcs = (c.sends b).pcs := fun b =>
      apply_update_of_eq SendState.pcs c.sends (by rfl) b
    refine ⟨fun t b hb => ?_, fun b hc => ?_⟩
    · simp only [hpcs]
      exact h.busy t b hb
    · by_cases hb : b = a
      · subst hb
        simp only [update_self] at hc
        cases hc
      · simp only [update_of_ne hb] at hc ⊢
        exact h.heard b hc
  | @broadcast t b after e tail send hrun hsending hbody hnext he =>
    obtain ⟨-, -, -, hothers⟩ := sendStep_send he
    refine h.setSend (n := c.numBuffers) hothers (fun a ha => ?_) (fun hc b' hb' => ?_)
    · rw [callsOn_concat, if_neg (Ne.symm ha), List.append_nil]
    · obtain ⟨hconnected, hkeep, hnew⟩ := coming_of_send he b'
      rw [callsOn_concat, if_pos rfl] at hb'
      rcases List.mem_append.1 hb' with hb' | hb'
      · exact hkeep (h.heard _ (hconnected ▸ hc) b' hb')
      · rw [List.mem_singleton.1 hb']
        exact hnew (hconnected ▸ hc)

variable [Fintype Tid] {s : ChatState Tid Sid}

omit [Fintype Tid] in
theorem heardInv_of_reach (h : Reach chatStep NoSendFails (chatState₀ : ChatState Tid Sid) s) : HeardInv s.core :=
  h.inv (P := fun s => HeardInv s.core) heardInv₀ (fun _ _ _ _ hi he hok => (chatStep_core he hok).heard hi)

theorem ChatReach.heard (h : ChatReach s) : HeardInv s.core :=
  heardInv_of_reach (Reach.mono h (fun _ _ _ hok => hok.2))

end Geon
