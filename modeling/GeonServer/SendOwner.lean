import GeonServer.SendRun
/-!
# SendOwner — who keeps a session alive while it sends

Whatever `WSASend` answers, a session has at most one send in flight, and `_sendEvent.owner` is set from before it is
posted until its completion is taken (`sendStep_owned`).  Of the invariant of SendRun this is the part that does not
depend on why a send failed.
-/
namespace Geon

open Lts Function

variable {Tid Buf : Type*}

/-- The thread has set `_sendEvent.owner` and has not come to the end of its send. -/
def SendPc.owning : SendPc Buf → Bool
  | .registerDrain _ | .registerPost _ => true
  | _ => false

/-- The sending side with the token at `w`: only a thread or an operation that has it may need the owner. -/
structure SendOwned (s : SendState Tid Buf) (w : SendWhere Tid) : Prop where
  solo : ∀ t, (s.pcs t).token = true ↔ w = .thread t
  flight : w = .flight → s.outstanding.length = 1 ∧ s.sendEvent.owner = true
  landed : w ≠ .flight → s.outstanding = []
  registered : w ≠ .nowhere → s.sendRegistered = true
  thread : ∀ t, (s.pcs t).owning = true → s.sendEvent.owner = true

theorem token_of_owning {pc : SendPc Buf} (h : pc.owning = true) : pc.token = true := by
  cases pc <;> first | rfl | cases h

variable {s s' : SendState Tid Buf} {w : SendWhere Tid} {t : Tid} {pc : SendPc Buf}

theorem SendOwned.at_thread (h : SendOwned s w) (ht : (s.pcs t).token = true) : SendOwned s (.thread t) :=
  (h.solo t).1 ht ▸ h

theorem SendOwned.outstanding_le (h : SendOwned s w) : s.outstanding.length ≤ s.sendEvent.owner.toNat := by
  by_cases hw : w = .flight
  · rw [(h.flight hw).1, (h.flight hw).2]
    rfl
  · rw [h.landed hw]
    exact Nat.zero_le _

theorem SendOwned.owner_of_flight (h : SendOwned s w) (ho : s.outstanding ≠ []) : s.sendEvent.owner = true := by
  have hle := h.outstanding_le
  have hpos := List.length_pos_iff.2 ho
  cases howner : s.sendEvent.owner with
  | true => rfl
  | false =>
    rw [howner, Bool.toNat_false] at hle
    omega

variable [DecidableEq Tid]

/-! ## Moving the token -/

theorem SendOwned.pass (h : SendOwned s w) (pc : SendPc Buf) (ht : (s.pcs t).token = false) (hpc : pc.token = false)
    (hpcs : s'.pcs = update s.pcs t pc) (ho : s'.outstanding = s.outstanding)
    (hr : s.sendRegistered = true → s'.sendRegistered = true) (he : s'.sendEvent = s.sendEvent) : SendOwned s' w where
  solo := by rw [hpcs]; exact solo_pass h.solo ht hpc
  flight := by rw [ho, he]; exact h.flight
  landed := by rw [ho]; exact h.landed
  registered hw := hr (h.registered hw)
  thread := by
    rw [hpcs, he, forall_update_iff s.pcs (p := fun _ pc => pc.owning = true → s.sendEvent.owner = true)]
    refine ⟨fun hown => ?_, fun u _ => h.thread u⟩
    rw [token_of_owning hown] at hpc
    cases hpc

theorem SendOwned.keep (pc : SendPc Buf) (hno : ∀ u, u ≠ t → (s.pcs u).token = false) (hpc : pc.token = true)
    (hpcs : s'.pcs = update s.pcs t pc) (ho : s'.outstanding = []) (hr : s'.sendRegistered = true)
    (howner : pc.owning = true → s'.sendEvent.owner = true) : SendOwned s' (.thread t) where
  solo := by rw [hpcs]; exact solo_keep hno hpc
  flight hw := by cases hw
  landed _ := ho
  registered _ := hr
  thread := by
    rw [hpcs, forall_update_iff s.pcs (p := fun _ pc => pc.owning = true → s'.sendEvent.owner = true)]
    refine ⟨howner, fun u hu hown => ?_⟩
    have := token_of_owning hown
    rw [hno u hu] at this
    cases this

theorem SendOwned.give (h : SendOwned s (.thread t)) (hpc : pc.token = false)
    (hpcs : s'.pcs = update s.pcs t pc) (hw : ∀ u, w ≠ .thread u)
    (hflight : w = .flight → s'.outstanding.length = 1 ∧ s'.sendEvent.owner = true)
    (hlanded : w ≠ .flight → s'.outstanding = []) (hr : w ≠ .nowhere → s'.sendRegistered = true) :
    SendOwned s' w where
  solo := by rw [hpcs]; exact solo_drop (fun u hu => solo_others h.solo hu) hpc hw
  flight := hflight
  landed := hlanded
  registered := hr
  thread u hu := by
    have htok := token_of_owning hu
    rw [hpcs, solo_drop (fun u hu => solo_others h.solo hu) hpc hw u] at htok
    exact absurd htok (hw u)

omit [DecidableEq Tid] in
theorem SendOwned.setConnected (h : SendOwned s w) (connected : Bool) :
    SendOwned { s with connected := connected } w :=
  ⟨h.solo, h.flight, h.landed, h.registered, h.thread⟩

theorem SendOwned.drop (h : SendOwned s (.thread t)) (pc : SendPc Buf) (hpc : pc.token = false)
    (hpcs : s'.pcs = update s.pcs t pc) (ho : s'.outstanding = s.outstanding) : SendOwned s' .nowhere :=
  h.give hpc hpcs (fun _ hw => by cases hw) (fun hw => by cases hw)
    (fun _ => ho.trans (h.landed (fun hw => by cases hw))) (fun hw => absurd rfl hw)

theorem SendOwned.next (h : SendOwned s (.thread t)) (pc : SendPc Buf) (hpc : pc.token = true)
    (hpcs : s'.pcs = update s.pcs t pc) (ho : s'.outstanding = s.outstanding)
    (hr : s'.sendRegistered = s.sendRegistered) (howner : pc.owning = true → s'.sendEvent.owner = true) :
    SendOwned s' (.thread t) :=
  .keep pc (fun _ hu => solo_others h.solo hu) hpc hpcs (ho.trans (h.landed (fun hw => by cases hw)))
    (hr.trans (h.registered (fun hw => by cases hw))) howner

/-! ## The steps -/

theorem SendOwned.without_token (h : SendOwned s w) {wsaSend : WsaResult} (htok : (s.pcs t).token = false)
    (he : s.next t wsaSend = some s') : ∃ w', SendOwned s' w' := by
  obtain ⟨b, _, -, rfl, rfl⟩ | ⟨-, rfl⟩ := next_without_token htok he
  · split
    · rename_i hr
      -- nobody has the token: `_sendRegistered` was not set
      have hw : w = .nowhere := by
        by_contra hne
        rw [h.registered hne] at hr
        cases hr
      subst hw
      exact ⟨_, .keep (s := s) (.registerCheck false) (fun u _ => solo_free h.solo (by simp)) rfl rfl
        (h.landed (fun hw => by cases hw)) rfl (fun hown => by cases hown)⟩
    · exact ⟨w, h.pass _ htok rfl rfl rfl (fun _ => rfl) rfl⟩
  · exact ⟨w, h.pass .idle htok rfl rfl rfl id rfl⟩

theorem SendOwned.with_token (h : SendOwned s (.thread t)) {wsaSend : WsaResult} (he : s.next t wsaSend = some s') :
    ∃ w', SendOwned s' w' := by
  have htok := (h.solo t).2 rfl
  have hthread := h.thread t
  unfold SendState.next at he
  cases hpc : s.pcs t <;> simp only [hpc] at he htok hthread
  case idle => cases he
  case sendPush => cases htok
  case processUnlock => cases htok
  case registerCheck locked =>
    split at he <;> cases he
    · exact ⟨_, h.drop _ (token_leave _) rfl rfl⟩
    · exact ⟨_, h.next (.registerDrain _) rfl rfl rfl rfl (fun _ => rfl)⟩
  case registerDrain locked =>
    split at he <;> cases he
    exact ⟨_, h.next (.registerPost _) rfl rfl rfl rfl (fun _ => hthread rfl)⟩
  case registerPost locked =>
    split at he <;> cases he
    · refine ⟨.flight, h.give (token_leave _) rfl (fun _ hw => by cases hw) (fun _ => ⟨?_, hthread rfl⟩)
        (fun hw => absurd rfl hw) (fun _ => h.registered (fun hw => by cases hw))⟩
      show (s.outstanding ++ [s.sendEvent.sendBuffers]).length = 1
      rw [h.landed (fun hw => by cases hw)]
      rfl
    · exact ⟨_, h.next (.registerError _ _) rfl rfl rfl rfl (fun hown => by cases hown)⟩
  case registerError locked errorCode =>
    split at he <;> cases he
    · exact ⟨_, h.next (.registerReset _) rfl rfl rfl rfl (fun hown => by cases hown)⟩
    · exact ⟨_, h.next (.registerReset _) rfl rfl rfl rfl (fun hown => by cases hown)⟩
  case registerReset locked =>
    cases he
    exact ⟨_, h.drop _ (token_leave _) rfl rfl⟩
  case processClear numOfBytes =>
    cases he
    exact ⟨_, h.next (.processCheck _) rfl rfl rfl rfl (fun hown => by cases hown)⟩
  case processCheck numOfBytes =>
    split at he <;> cases he
    · exact ⟨_, h.drop .idle rfl rfl rfl⟩
    · exact ⟨_, h.next .processLock rfl rfl rfl rfl (fun hown => by cases hown)⟩
  case processLock =>
    split at he <;> cases he
    exact ⟨_, h.next .processEmpty rfl rfl rfl rfl (fun hown => by cases hown)⟩
  case processEmpty =>
    split at he <;> cases he
    · exact ⟨_, h.drop .processUnlock rfl rfl rfl⟩
    · exact ⟨_, h.next (.registerCheck true) rfl rfl rfl rfl (fun hown => by cases hown)⟩

theorem SendOwned.step_next (h : SendOwned s w) {wsaSend : WsaResult} (he : s.next t wsaSend = some s') :
    ∃ w', SendOwned s' w' := by
  by_cases htok : (s.pcs t).token = true
  · exact (h.at_thread htok).with_token he
  · exact h.without_token (Bool.eq_false_of_not_eq_true htok) he

/-- **Whatever the system answers, no send is in flight without its owner.** -/
theorem sendStep_owned (h : SendOwned s w) {a : SendAct Tid Buf} (he : sendStep s a = some s') :
    ∃ w', SendOwned s' w' := by
  cases a with
  | send t sendBuffer =>
    simp only [sendStep] at he
    split at he
    · rename_i hpc
      cases he
      split
      · exact ⟨w, h⟩
      · exact ⟨w, h.pass (.sendPush sendBuffer) (by rw [hpc]; rfl) rfl rfl rfl id rfl⟩
    · cases he
  | next t wsaSend => exact h.step_next he
  | complete t i numOfBytes =>
    simp only [sendStep] at he
    split at he
    · split at he
      · rename_i hi
        cases he
        -- an operation can only be outstanding when it has the token
        have hw : w = .flight := by
          by_contra hne
          rw [h.landed hne] at hi
          exact absurd hi (Nat.not_lt_zero i)
        subst hw
        refine ⟨_, .keep (s := s) (.processClear numOfBytes) (fun u _ => solo_free h.solo (by simp)) rfl rfl ?_
          (h.registered (fun hw => by cases hw)) (fun hown => by cases hown)⟩
        have hlen := (h.flight rfl).1
        apply List.length_eq_zero_iff.1
        show (s.outstanding.eraseIdx i).length = 0
        rw [List.length_eraseIdx_of_lt hi]
        omega
      · cases he
    · cases he
  | disconnect =>
    cases he
    exact ⟨w, h.setConnected false⟩

end Geon
