import GeonServer.ServiceEffect
import GeonServer.ServiceMarks
/-!
# ServiceStep — every step of the service is a move of one session

`step_moves` says what each effect of a step is in the lives of the sessions.  It needs what holds of them before the
step: an event's `owner` that is set was not, the completion that is dequeued has an owner, and the session that
`ReleaseSession` erases is in the set.
-/
namespace Geon

open Net Lts Function

variable {Tid Buf : Type} {K : Contents Buf} [Fintype Tid] [DecidableEq Tid]

/-- Of some rules, the action that made the move and what it met. -/
def LifeRule.Cause (s : ServiceState Tid K) (act : ServiceAct Tid Buf) (a : Nat) : LifeRule → Prop
  | .connectComplete failed => ∃ t error, act = .dequeue t (.connect a) error ∧ (failed = true ↔ error ≠ none)
  | .recvLog => ∃ t answer accepted errCode, act = .next t answer ∧
      s.workers t = ⟨.registerRecv a accepted (.error errCode), none, none⟩ ∧ handleError errCode = none
  | .recvComplete empty => ∃ t i bytes error, act = .dequeue t (.recv a i bytes) error ∧
      (empty = true ↔ bytes.length = 0)
  | .closeFail => ∃ t answer, act = .next t answer ∧ (s.workers t).closing = some (a, .post) ∧
      answer.wsa.failed ≠ none
  | .closeComplete => ∃ t error, act = .dequeue t (.disconnect a) error
  | .partClear => ∃ t answer, act = .next t answer ∧ s.workers t = ⟨.processDisconnect a .clear, none, none⟩
  | _ => True

namespace ServiceState

variable {s : ServiceState Tid K} {t : Tid} {a : Nat} {act : ServiceAct Tid Buf} {r : LifeRule}
  {x : Session Tid Buf} {task task' : Task K.Prog Buf}

/-- The step is a move of session `a`, and no crash. -/
def Moves (s s' : ServiceState Tid K) (act : ServiceAct Tid Buf) (a : Nat) : Prop :=
  s'.crashed = s.crashed ∧ ∃ r : LifeRule, Moved s s' a r ∧ r.Cause s act a

/-! ## Shapes of steps -/

omit [Fintype Tid] [DecidableEq Tid] in
/-- The marks of a thread, those of a disconnect in front. -/
theorem marks_perm {Prog : Type} (w : ServiceWorker Prog Buf) :
    w.marks.Perm ((w.closing.map (fun c => (c.1, c.2.place))).toList ++ (w.task.place.toList ++
      (w.sending.map (fun a => (a, Place.sending))).toList)) := by
  rw [ServiceWorker.marks, ← List.append_assoc]
  exact List.perm_append_comm

theorem Moved.goto (xs ys : List Place) (hw : s.workers t = ⟨task, none, none⟩)
    (hfrom : task.place.toList = xs.map (fun p => (a, p))) (hto : task'.place.toList = ys.map (fun p => (a, p)))
    (hr : r.rule = ⟨xs ++ [], ys ++ []⟩) (hg : r.Guard (s.marking a)) : Moved s (s.goto t task') a r :=
  .of_task xs ys [] [] (x := s.session a) hw rfl hfrom hto hr (update_eq_self a s.session).symm (fun _ _ => .rfl) rfl
    (fun _ => rfl) (fun _ hp => by cases hp) hg

theorem Moved.setGoto (xs ys xs' ys' : List Place) (hw : s.workers t = ⟨task, none, none⟩)
    (hfrom : task.place.toList = xs.map (fun p => (a, p))) (hto : task'.place.toList = ys.map (fun p => (a, p)))
    (hr : r.rule = ⟨xs ++ xs', ys ++ ys'⟩)
    (hpart : ∀ m c p, x.part m c p + xs'.count p = (s.session a).part m c p + ys'.count p)
    (hfresh : ∀ p ∈ xs', ys'.count p = 0) (hg : r.Guard (s.marking a)) :
    Moved s ((s.setSession a x).goto t task') a r :=
  .of_task xs ys xs' ys' (x := x) hw rfl hfrom hto hr rfl (fun _ _ => .rfl) rfl (hpart _ _) hfresh hg

theorem Moved.stays {s' : ServiceState Tid K} {w : ServiceWorker K.Prog Buf} (a : Nat)
    (hw : s'.workers = update s.workers t w) (hmarks : w.marks = (s.workers t).marks) (hs : s'.session = s.session)
    (hm : s'.sessions = s.sessions) (hn : s'.numSessions = s.numSessions) : Moved s s' a .stay :=
  .of_marks [] [] [] [] _ hw (.refl _) (.of_eq hmarks) rfl
    (fun _ => by rw [hs, hm, hn]) (fun _ hp => by cases hp) (fun _ _ => by rw [hs, hm, hn]; exact ⟨rfl, .rfl, .rfl⟩)
    trivial

/-! ## `Disconnect` -/

theorem closeStep_moves (hL : ∀ a, Life (s.marking a)) {answer : Answer} {pc : ClosePc} {pc' : Option ClosePc}
    (hc : (s.workers t).closing = some (a, pc)) (h : CloseStep answer (s.session a) pc x pc') :
    Moves s ((s.setSession a x).setWorker t { s.workers t with closing := pc'.map (fun pc => (a, pc)) })
      (.next t answer) a := by
  have hfrom := marks_perm (s.workers t)
  rw [hc] at hfrom
  cases h with
  | own =>
    have hpos : 0 < s.marking a .closing := marking_pos (t := t) ((mem_marks_closing .register).2 hc)
    have hfalse := (hL a).facts.disconnectOwner_of_closing hpos
    rw [marking_disconnectOwner, Bool.toNat_eq_zero] at hfalse
    refine ⟨rfl, .closeOwn, .of_marks [.closing] [.closePosting] [] [.disconnectOwner] _
      rfl hfrom (marks_perm _) rfl (fun p => ?_) (fun _ hp => by cases hp)
      (fun b hb => ⟨update_of_ne hb .., .rfl, .rfl⟩) trivial, trivial⟩
    simp only [setWorker, setSession, update_self]
    cases p <;> first | rfl | simp [Session.part, hfalse]
  | post _ =>
    refine ⟨rfl, .closePost, .of_marks [.closePosting] [] [] [.disconnectOp] _
      rfl hfrom (marks_perm _) rfl (fun p => ?_) (fun _ hp => by cases hp)
      (fun b hb => ⟨update_of_ne hb .., .rfl, .rfl⟩) trivial, trivial⟩
    simp only [setWorker, setSession, update_self]
    cases p <;> rfl
  | fail hfail =>
    rw [setSession_self]
    exact ⟨rfl, .closeFail, .of_marks [.closePosting] [.closeReset] [] [] _ rfl
      hfrom (marks_perm _) rfl (fun p => rfl) (fun _ hp => by cases hp)
      (fun b hb => ⟨rfl, .rfl, .rfl⟩) trivial, t, answer, rfl, hc, hfail⟩
  | drop =>
    have htrue := disconnectEvent_owned (hL a) (.inr ⟨t, .inr (.inl hc)⟩)
    refine ⟨rfl, .closeDrop, .of_marks [.closeReset] [] [.disconnectOwner] [.lost] _ rfl
      hfrom (marks_perm _) rfl (fun p => ?_) (fun p hp => ?_)
      (fun b hb => ⟨update_of_ne hb .., .rfl, .rfl⟩) trivial, trivial⟩
    · simp only [setWorker, setSession, update_self]
      cases p <;> first | rfl | simp [Session.part, htrue]
    · rw [List.mem_singleton.1 hp]
      rfl

/-- The task goes on, and the thread is disconnecting the session, which was connected. -/
theorem Moved.hangUp (xs ys : List Place) (hw : s.workers t = ⟨task, none, none⟩)
    (hc : (s.session a).send.connected = true)
    (hfrom : task.place.toList = xs.map (fun p => (a, p))) (hto : task'.place.toList = ys.map (fun p => (a, p)))
    (hr : r.rule = ⟨xs ++ [.connected], (ys ++ [.closing]) ++ []⟩) (hg : r.Guard (s.marking a)) :
    Moved s ((s.setSession a { s.session a with send := { (s.session a).send with connected := false } }).setWorker t
      ⟨task', none, some (a, .register)⟩) a r := by
  refine .of_marks xs (ys ++ [.closing]) [.connected] [] [] rfl ?_ ?_ hr (fun p => ?_) (fun p _ => rfl)
    (fun b hb => ⟨update_of_ne hb .., .rfl, .rfl⟩) hg
  · rw [hw, ServiceWorker.marks, hfrom]
    exact .refl _
  · rw [ServiceWorker.marks, hto, List.map_append]
    exact .of_eq (by simp [ClosePc.place])
  · simp only [setWorker, setSession, update_self]
    cases p <;> first | rfl | simp [Session.part, hc]

omit [DecidableEq Tid] in
theorem marking_of_known {b : Nat} (h : s.known b) : 0 < s.marking b .added ∧ s.marking b .destroyed = 0 := by
  refine ⟨by rw [marking_added]; exact h.1, ?_⟩
  rw [marking_flag _ _ rfl]
  simp [Session.part, h.2]

theorem hangUp_moves (hw : s.workers t = ⟨task, none, none⟩) (h : HangsUp s t a act task task')
    (hc : (s.session a).send.connected = true) :
    Moves s ((s.setSession a { s.session a with send := { (s.session a).send with connected := false } }).setWorker t
      ⟨task', none, some (a, .register)⟩) act a := by
  cases h with
  | recvFailed answer accepted errCode _ =>
    exact ⟨rfl, .recvClose, .hangUp [.recvFailed] [.recvReset] hw hc rfl rfl rfl trivial, trivial⟩
  | recvEmpty answer numOfBytes _ =>
    exact ⟨rfl, .checkClose (numOfBytes = 0), .hangUp [.recvChecking (numOfBytes = 0)] [] hw hc rfl rfl rfl trivial,
      trivial⟩
  | recvLoop answer processLen _ => exact ⟨rfl, .loopClose, .hangUp [.receiving] [] hw hc rfl rfl rfl trivial, trivial⟩
  | contents hknown => exact ⟨rfl, .callClose, .hangUp [] [] hw hc rfl rfl rfl (marking_of_known hknown), trivial⟩

/-- `Disconnect` of a session that is not connected. -/
theorem hungUp_moves (hw : s.workers t = ⟨task, none, none⟩) (h : HangsUp s t a act task task')
    (hc : (s.session a).send.connected = false) : Moves s (s.goto t task') act a := by
  have h0 : s.marking a .connected = 0 := by rw [marking_connected, hc]; rfl
  cases h with
  | recvFailed answer accepted errCode _ =>
    exact ⟨rfl, .recvQuiet, .goto [.recvFailed] [.recvReset] hw rfl rfl rfl h0, trivial⟩
  | recvEmpty answer numOfBytes _ =>
    exact ⟨rfl, .checkEnd (numOfBytes = 0), .goto [.recvChecking (numOfBytes = 0)] [] hw rfl rfl rfl h0, trivial⟩
  | recvLoop answer processLen _ => exact ⟨rfl, .loopEnd, .goto [.receiving] [] hw rfl rfl rfl h0, trivial⟩
  | contents _ => exact ⟨rfl, .stay, .goto [] [] hw rfl rfl rfl trivial, trivial⟩

/-! ## `Send` and `ProcessSend` -/

omit [Fintype Tid] in
/-- A step of a session's sending code posts a send, or clears `_connected`, or neither. -/
theorem sendNext_effect {x x' : SendState Tid Buf} {wsa : WsaResult} (he : sendStep x (.next t wsa) = some x') :
    ∃ posts : Bool, x'.outstanding.length = x.outstanding.length + posts.toNat ∧
      (x'.connected = x.connected ∨ x'.connected = false) := by
  simp only [sendStep, SendState.next] at he
  cases hpc : x.pcs t <;> simp only [hpc] at he
  case idle => cases he
  case sendPush sendBuffer =>
    split at he <;> cases he
    exact ⟨false, by split <;> rfl, .inl (by split <;> rfl)⟩
  case registerCheck locked => split at he <;> cases he <;> exact ⟨false, rfl, .inl rfl⟩
  case registerDrain locked =>
    split at he <;> cases he
    exact ⟨false, rfl, .inl rfl⟩
  case registerPost locked =>
    split at he <;> cases he
    · exact ⟨true, by simp [SendState.leave, SendState.goto], .inl rfl⟩
    · exact ⟨false, rfl, .inl rfl⟩
  case registerError locked errorCode =>
    split at he <;> cases he
    · exact ⟨false, rfl, .inr rfl⟩
    · exact ⟨false, rfl, .inl rfl⟩
  case registerReset locked | processClear numOfBytes | processUnlock =>
    cases he
    exact ⟨false, rfl, .inl rfl⟩
  case processCheck numOfBytes =>
    split at he <;> cases he
    · exact ⟨false, rfl, .inr rfl⟩
    · exact ⟨false, rfl, .inl rfl⟩
  case processLock =>
    split at he <;> cases he
    exact ⟨false, rfl, .inl rfl⟩
  case processEmpty => split at he <;> cases he <;> exact ⟨false, rfl, .inl rfl⟩

theorem sendNext_moves {wsa : WsaResult} {send : SendState Tid Buf} (hc : (s.workers t).closing = none)
    (hs : (s.workers t).sending = some a) (he : sendStep (s.session a).send (.next t wsa) = some send) :
    Moves s (s.setSend t a (s.workers t).task send) act a := by
  obtain ⟨posts, hlen, hconn⟩ := sendNext_effect he
  obtain ⟨stays, hstays⟩ : ∃ stays : Bool, (send.pcs t).isIdle = !stays := ⟨!_, (Bool.not_not _).symm⟩
  obtain ⟨closes, hcl, hsum⟩ : ∃ closes : Bool, ((s.session a).send.connected = true ∧ send.connected = false ↔
      closes = true) ∧ send.connected.toNat + closes.toNat = (s.session a).send.connected.toNat := by
    rcases hconn with h | h
    · exact ⟨false, by simp [h], by rw [h]; rfl⟩
    · exact ⟨(s.session a).send.connected, by simp [h], by rw [h, Bool.toNat_false, Nat.zero_add]⟩
  refine ⟨rfl, .sendNext stays posts closes, .of_marks [.sending]
    ((if stays = true then [.sending] else []) ++ (if closes = true then [.closing] else []))
    (if closes = true then [.connected] else []) (if posts = true then [.sendOp] else [])
    (s.workers t).task.place.toList rfl ?_ ?_ rfl
    (fun p => ?_) (fun p hp => ?_) (fun b hb => ⟨update_of_ne hb .., .rfl, .rfl⟩) trivial, trivial⟩
  · rw [ServiceWorker.marks, hs, hc]
    exact List.perm_append_comm
  · refine .trans (.of_eq ?_) List.perm_append_comm
    simp only [ServiceWorker.marks, hstays, hcl]
    cases stays <;> cases closes <;> rfl
  · simp only [setSend, setWorker, setSession, update_self]
    cases p with
    | connected =>
      simp only [Session.part]
      cases closes <;> cases posts <;> exact hsum
    | sendOp =>
      simp only [Session.part, hlen]
      cases closes <;> cases posts <;> rfl
    | _ => cases closes <;> cases posts <;> rfl
  · cases closes with
    | false => cases hp
    | true => rw [List.mem_singleton.1 hp]; cases posts <;> rfl

/-- The broadcasts under way are of sessions in the set. -/
def BroadcastsMembers (s : ServiceState Tid K) : Prop :=
  ∀ t sendBuffer todo, (s.workers t).task = .broadcast sendBuffer todo → ∀ b ∈ todo, b ∈ s.sessions

omit [DecidableEq Tid] in
theorem known_of_member (hL : ∀ a, Life (s.marking a)) {b : Nat} (hb : b ∈ s.sessions) :
    0 < s.marking b .added ∧ s.marking b .destroyed = 0 := by
  have hmember : s.marking b .member = 1 := by
    rw [marking_member, decide_eq_true hb]
    rfl
  have := (hL b).facts.member
  refine ⟨by omega, ?_⟩
  by_contra hd
  have := (hL b).dead (Nat.pos_of_ne_zero hd) .member (by decide)
  omega

omit [Fintype Tid] [DecidableEq Tid] in
theorem Virtual.place {inside : K.Prog → Task K.Prog Buf} {after : Task K.Prog Buf} {note : History → History}
    (h : Virtual a inside after note) (prog prog' : K.Prog) : (inside prog').place = (inside prog).place := by
  cases h <;> rfl

omit [Fintype Tid] [DecidableEq Tid] in
theorem Sender.place {b : Nat} {sendBuffer : Buf} {contents : K.State}
    (h : Sender s t b sendBuffer act task contents task') : task'.place = task.place := by
  cases h with
  | callback _ hv _ _ => exact hv.place _ _
  | broadcast _ _ => rfl
  | contents _ => rfl

omit [DecidableEq Tid] in
/-- `Send` is called on a session that has been added and is still there. -/
theorem Sender.added (hL : ∀ a, Life (s.marking a)) (hB : BroadcastsMembers s) {b : Nat} {sendBuffer : Buf}
    {contents : K.State} (hw : s.workers t = ⟨task, none, none⟩)
    (h : Sender s t b sendBuffer act task contents task') :
    0 < s.marking b .added ∧ s.marking b .destroyed = 0 := by
  cases h with
  | callback _ _ _ hknown => exact marking_of_known hknown
  | broadcast _ sessions => exact known_of_member hL (hB t sendBuffer (b :: sessions) (by rw [hw]) b List.mem_cons_self)
  | contents hknown => exact marking_of_known hknown

/-- A call of `Send` changes nothing, or brings the thread into the code. -/
theorem callSend_moves {b : Nat} {sendBuffer : Buf} {send : SendState Tid Buf} (contents : K.State)
    (hw : s.workers t = ⟨task, none, none⟩) (hplace : task'.place = task.place)
    (hg : 0 < s.marking b .added ∧ s.marking b .destroyed = 0)
    (he : sendStep (s.session b).send (.send t sendBuffer) = some send) :
    Moves s ({ s with contents := contents }.setSend t b task' send) act b := by
  simp only [sendStep] at he
  split at he
  · rename_i hidle
    cases he
    split
    · rename_i hconn
      refine ⟨rfl, .stay, .stays b rfl ?_ (update_eq_self ..) rfl rfl, trivial⟩
      simp [ServiceWorker.marks, hw, hplace, hidle, hconn, SendPc.isIdle]
    · rename_i hconn
      refine ⟨rfl, .sendCall, .of_marks [] [.sending] [] [] _ (s := s) rfl (.refl _)
        ?_ rfl (fun p => ?_) (fun p hp => by cases hp) (fun c hc => ⟨update_of_ne hc .., .rfl, .rfl⟩) hg, trivial⟩
      · refine .trans (.of_eq ?_) List.perm_append_comm
        simp [ServiceWorker.marks, hw, hplace, hconn, SendPc.isIdle, SendState.goto]
      · simp only [setSend, setWorker, setSession, update_self]
        cases p <;> rfl
  · cases he

/-! ## A task -/

omit [Fintype Tid] [DecidableEq Tid] in
theorem afterRecv_place (accepted : Bool) : (afterRecv accepted : Task K.Prog Buf).place = none := by
  cases accepted <;> rfl

/-- **Every step of a task is one of the session's life.** -/
theorem taskStep_moves (hL : ∀ a, Life (s.marking a)) {type : ServiceType} {junk : Nat → BYTE} {answer : Answer}
    (hw : s.workers t = ⟨task, none, none⟩) (h : TaskStep type junk answer a (s.session a) task x task') :
    Moves s ((s.setSession a x).goto t task') (.next t answer) a := by
  have hfacts := (hL a).facts
  have hafter : ∀ accepted : Bool, (afterRecv accepted : Task K.Prog Buf).place.toList =
      ([] : List Place).map (fun p => (a, p)) := fun accepted => by
    rw [afterRecv_place]
    rfl
  have hpos : ∀ {p : Place}, task.place = some (a, p) → 0 < s.marking a p := fun {p} hp =>
    marking_pos_of_task (t := t) (by rw [hw]; exact hp)
  cases h with
  | connectRefused _ =>
    rw [setSession_self]
    exact ⟨rfl, .connectRefused, .goto [.connecting] [] hw rfl rfl rfl trivial, trivial⟩
  | connectOwn _ _ _ =>
    have hfalse := hfacts.connectOwner_of_connecting (hpos rfl)
    rw [marking_connectOwner, Bool.toNat_eq_zero] at hfalse
    refine ⟨rfl, .connectOwn, .setGoto [.connecting] [.connectPosting] []
      [.connectOwner] hw rfl rfl rfl (fun m c p => ?_) (fun _ hp => by cases hp) trivial, trivial⟩
    cases p <;> first | rfl | simp [Session.part, hfalse]
  | connectPost _ =>
    refine ⟨rfl, .connectPost, .setGoto [.connectPosting] [] [] [.connectOp] hw rfl
      rfl rfl (fun m c p => ?_) (fun _ hp => by cases hp) trivial, trivial⟩
    cases p <;> rfl
  | connectFail _ =>
    rw [setSession_self]
    exact ⟨rfl, .connectFail, .goto [.connectPosting] [.connectReset] hw rfl rfl rfl trivial, trivial⟩
  | connectDrop =>
    have htrue := connectEvent_owned (hL a) (.inr ⟨t, .inr (.inl (by rw [hw]))⟩)
    refine ⟨rfl, .connectDrop, .setGoto [.connectReset] [] [.connectOwner] [] hw rfl
      rfl rfl (fun m c p => ?_) (fun _ _ => rfl) trivial, trivial⟩
    cases p <;> first | rfl | simp [Session.part, htrue]
  | acceptPost _ =>
    refine ⟨rfl, .acceptPost, .setGoto [.accepting] [] [] [.acceptOp] hw rfl rfl rfl
      (fun m c p => ?_) (fun _ hp => by cases hp) trivial, trivial⟩
    cases p <;> rfl
  | acceptFail _ | acceptRefused _ =>
    rw [setSession_self]
    exact ⟨rfl, .acceptDrop, .goto [.accepting] [] hw rfl rfl rfl trivial, trivial⟩
  | acceptOpen _ =>
    refine ⟨rfl, .acceptOpen, .setGoto [.accepting] [.opening true] []
      [.connects, .accepted] hw rfl rfl rfl (fun m c p => ?_) (fun _ hp => by cases hp) trivial, trivial⟩
    cases p <;> rfl
  | «open» accepted =>
    have hopening := hpos (p := .opening accepted) rfl
    have hconn : (s.session a).send.connected = false := by
      have := hfacts.connected_of_opening (by cases accepted <;> omega)
      rwa [marking_connected, Bool.toNat_eq_zero] at this
    cases accepted with
    | false =>
      have htrue := connectEvent_owned (hL a) (.inr ⟨t, .inr (.inr (by rw [hw]))⟩)
      refine ⟨rfl, .open false, .setGoto [.opening false] [.adding] [.connectOwner]
        [.connected] hw rfl rfl rfl (fun m c p => ?_) (fun p hp => ?_) trivial, trivial⟩
      · cases p <;> first | rfl | simp [Session.part, hconn, htrue]
      · rw [List.mem_singleton.1 hp]
        rfl
    | true =>
      have hfalse := hfacts.connectOwner_of_accepted hopening
      rw [marking_connectOwner, Bool.toNat_eq_zero] at hfalse
      refine ⟨rfl, .open true, .setGoto [.opening true] [.adding] []
        [.connected] hw rfl rfl rfl (fun m c p => ?_) (fun p hp => by cases hp) trivial, trivial⟩
      cases p <;> first | rfl | simp [Session.part, hconn, hfalse]
  | recvSkip accepted hconn =>
    rw [setSession_self]
    exact ⟨rfl, .recvSkip, .goto [.arming] [] hw rfl (hafter accepted) rfl
      (by show s.marking a .connected = 0; rw [marking_connected, hconn]; rfl), trivial⟩
  | recvOwn accepted _ =>
    have hfalse := hfacts.recvOwner_of_arming (hpos rfl)
    rw [marking_recvOwner, Bool.toNat_eq_zero] at hfalse
    refine ⟨rfl, .recvOwn, .setGoto [.arming] [.recvPosting] [] [.recvOwner] hw rfl
      rfl rfl (fun m c p => ?_) (fun _ hp => by cases hp) trivial, trivial⟩
    cases p <;> first | rfl | simp [Session.part, hfalse]
  | recvPost accepted _ =>
    refine ⟨rfl, .recvPost, .setGoto [.recvPosting] [] [] [.recvOp] hw rfl (hafter accepted)
      rfl (fun m c p => ?_) (fun _ hp => by cases hp) trivial, trivial⟩
    cases p <;> first | rfl | simp [Session.part]
  | recvFail accepted errCode _ =>
    rw [setSession_self]
    exact ⟨rfl, .recvFail, .goto [.recvPosting] [.recvFailed] hw rfl rfl rfl trivial, trivial⟩
  | recvLog accepted errCode hcode =>
    rw [setSession_self]
    exact ⟨rfl, .recvLog, .goto [.recvFailed] [.recvReset] hw rfl rfl rfl trivial,
      t, answer, accepted, errCode, rfl, hw, hcode⟩
  | recvDrop accepted =>
    have htrue := recvEvent_owned (hL a) (.inr ⟨t, .inl ⟨accepted, .reset, by rw [hw], fun h => by cases h⟩⟩)
    refine ⟨rfl, .recvDrop, .setGoto [.recvReset] [] [.recvOwner] [] hw rfl (hafter accepted) rfl
      (fun m c p => ?_) (fun p hp => rfl) trivial, trivial⟩
    cases p <;> first | rfl | simp [Session.part, htrue]
  | recvClear numOfBytes =>
    have htrue := recvEvent_owned (hL a) (.inr ⟨t, .inr ⟨numOfBytes, by rw [hw]⟩⟩)
    refine ⟨rfl, .recvClear (numOfBytes = 0), .setGoto [.recvClearing (numOfBytes = 0)]
      [.recvChecking (numOfBytes = 0)] [.recvOwner] [] hw rfl rfl rfl (fun m c p => ?_)
      (fun _ _ => rfl) trivial, trivial⟩
    cases p <;> first | rfl | simp [Session.part, htrue]
  | recvRead numOfBytes b hne _ =>
    refine ⟨rfl, .recvRead, .setGoto [.recvChecking false] [.receiving] [] [] hw
      ?_ rfl rfl (fun m c p => ?_) (fun _ hp => by cases hp) trivial, trivial⟩
    · simp [Task.place, hne]
    · cases p <;> rfl
  | recvPacket processLen size _ =>
    rw [setSession_self]
    exact ⟨rfl, .stay, .stays a rfl (by rw [hw]; rfl) rfl rfl rfl, trivial⟩
  | recvAgain processLen b _ _ =>
    refine ⟨rfl, .recvAgain, .setGoto [.receiving] [.arming] [] [] hw rfl rfl
      rfl (fun m c p => ?_) (fun _ hp => by cases hp) trivial, trivial⟩
    cases p <;> rfl
  | partClear =>
    have htrue := disconnectEvent_owned (hL a) (.inr ⟨t, .inr (.inr (by rw [hw]))⟩)
    refine ⟨rfl, .partClear, .setGoto [.partClearing] [.parting] [.disconnectOwner]
      [] hw rfl rfl rfl (fun m c p => ?_) (fun _ _ => rfl) trivial, t, answer, rfl, hw⟩
    cases p <;> first | rfl | simp [Session.part, htrue]

/-- **Every step on the lock too.** -/
theorem lockStep_moves (hL : ∀ a, Life (s.marking a)) {s₁ : ServiceState Tid K} (hw : s.workers t = ⟨task, none, none⟩)
    (h : LockStep s t a act task s₁ x task') : Moves s ((s₁.setSession a x).goto t task') act a := by
  cases h with
  | count answer accepted _ =>
    exact ⟨rfl, .stay, .stays a rfl (by rw [hw]; rfl) (update_eq_self ..) rfl rfl, trivial⟩
  | insert answer accepted =>
    have hmem := notMem_of_adding (hL a) (marking_pos_of_task (t := t) (by rw [hw]; rfl))
    refine ⟨rfl, .add, .of_task [.adding] [.greeting] [] [.added, .member] hw rfl rfl
      rfl rfl rfl (fun b hb => ?_) rfl (fun p => ?_) (fun _ hp => by cases hp) trivial, trivial⟩
    · simp [ServiceState.goto, setWorker, setSession, hb]
    · simp only [ServiceState.goto, setWorker, setSession, Finset.mem_insert_self, hmem, decide_true, decide_false]
      cases p <;> rfl
  | release answer _ hmem =>
    refine ⟨rfl, .release, .of_task [.releasing] [.leaving] [.member] [.released]
      hw rfl rfl rfl rfl rfl (fun b hb => ?_) rfl (fun p => ?_) (fun p hp => ?_) trivial, trivial⟩
    · simp [ServiceState.goto, setWorker, setSession, hb]
    · simp only [ServiceState.goto, setWorker, setSession, Finset.mem_erase, ne_eq, not_true, false_and, hmem,
        decide_true, decide_false]
      cases p <;> rfl
    · rw [List.mem_singleton.1 hp]
      rfl
  | uncount answer =>
    exact ⟨rfl, .leave, .of_task (x := s.session a) [.leaving] [] [] [] hw rfl rfl rfl
      rfl rfl (fun _ _ => .rfl) rfl (fun _ => rfl) (fun _ hp => by cases hp) trivial, trivial⟩
  | broadcast sendBuffer order _ _ _ =>
    exact ⟨rfl, .stay, .stays a rfl (by rw [hw]; rfl) (update_eq_self ..) rfl rfl, trivial⟩
  | broadcastEnd answer sendBuffer =>
    exact ⟨rfl, .stay, .stays a rfl (by rw [hw]; rfl) (update_eq_self ..) rfl rfl, trivial⟩

/-! ## The contents code -/

/-- A virtual function returns. -/
theorem ret_moves {answer : Answer} {inside : K.Prog → Task K.Prog Buf} {after : Task K.Prog Buf}
    {note : History → History} {prog : K.Prog} (contents : K.State) (hw : s.workers t = ⟨inside prog, none, none⟩)
    (h : Virtual a inside after note) :
    Moves s (({ s with contents := contents }.setSession a
      { s.session a with history := note (s.session a).history }).goto t after) (.next t answer) a := by
  cases h with
  | onConnected accepted =>
    refine ⟨rfl, .greet, .of_task [.greeting] [.arming] [] [.greeted] hw rfl rfl rfl rfl rfl
      (fun _ _ => .rfl) rfl (fun p => ?_) (fun _ hp => by cases hp) trivial, trivial⟩
    cases p <;> rfl
  | onRecvPacket processLen =>
    exact ⟨rfl, .stay, .stays a rfl (by rw [hw]; rfl) (update_eq_self ..) rfl rfl, trivial⟩
  | onDisconnected =>
    refine ⟨rfl, .part, .of_task [.parting] [.releasing] [] [.parted] hw rfl rfl rfl rfl rfl
      (fun _ _ => .rfl) rfl (fun p => ?_) (fun _ hp => by cases hp) trivial, trivial⟩
    cases p <;> rfl

/-! ## `CreateSession` -/

theorem createSession_moves (hL : ∀ a, Life (s.marking a)) {f : Nat → Task K.Prog Buf} {q : Place}
    (hw : s.workers t = ⟨task, none, none⟩) (hplace : task.place = none)
    (hto : (f s.numSessions).place = some (s.numSessions, q)) (hr : r.rule = ⟨[], [q, .created]⟩)
    (hg : (∀ p, s.marking s.numSessions p = 0) → r.Guard (s.marking s.numSessions))
    (hcause : r.Cause s act s.numSessions) : Moves s (s.createSession t f) act s.numSessions := by
  have hblank : ∀ p, s.marking s.numSessions p = 0 := (hL _).blank (by
    rw [marking_flag _ _ rfl]
    simp [Session.part])
  have hpart : ∀ p, (s.session s.numSessions).part (decide (s.numSessions ∈ s.sessions))
      (decide (s.numSessions < s.numSessions)) p = 0 := fun p => by
    have := hblank p
    unfold marking at this
    omega
  have hmem : s.numSessions ∉ s.sessions := by
    have := hblank .member
    rw [marking_member, Bool.toNat_eq_zero] at this
    exact of_decide_eq_false this
  refine ⟨rfl, r, .of_marks [] [q] [] [.created] [] rfl ?_ ?_ hr (fun p => ?_)
    (fun _ hp => by cases hp) (fun b hb => ⟨update_of_ne hb .., .rfl, ?_⟩) (hg hblank), hcause⟩
  · rw [hw, ServiceWorker.marks, hplace]
    exact .refl _
  · rw [ServiceWorker.marks, hto]
    exact .refl _
  · rw [hpart]
    simp only [createSession, goto, setWorker, setSession, update_self, hmem, decide_false, Nat.lt_succ_self,
      decide_true]
    cases p <;> rfl
  · simp only [createSession, goto, setWorker, setSession]
    omega

theorem creates_moves (hL : ∀ a, Life (s.marking a)) {f : Nat → Task K.Prog Buf}
    (hw : s.workers t = ⟨task, none, none⟩) (h : Creates t act task f) :
    Moves s (s.createSession t f) act s.numSessions := by
  cases h with
  | accept answer => exact createSession_moves (r := .createAccept) hL hw rfl rfl rfl id trivial
  | connect => exact createSession_moves (r := .createConnect) hL hw rfl rfl rfl id trivial

/-! ## `IocpCore::Dispatch` -/

omit [Fintype Tid] [DecidableEq Tid] in
theorem dispatch_of_owner {owner : Bool} (h : owner = true) : s.dispatch owner = s := by
  rw [dispatch, if_pos h]

omit [DecidableEq Tid] in
theorem Dequeued.lt (hL : ∀ a, Life (s.marking a)) {completion : Completion} {error : Option Nat} {owner : Bool}
    (h : Dequeued error a (s.session a) completion x task' owner) : a < s.numSessions := by
  cases h with
  | connect ops hops => exact lt_numSessions (p := .connectOp) hL (by rw [marking_connectOp, hops]; exact Nat.succ_pos _)
  | disconnect ops hops =>
    exact lt_numSessions (p := .disconnectOp) hL (by rw [marking_disconnectOp, hops]; exact Nat.succ_pos _)
  | accept accepts haccepts =>
    refine lt_numSessions (p := .acceptOp) hL ?_
    rw [marking_flag _ _ rfl]
    simp [Session.part, haccepts]
  | recv i bytes posted hposted _ =>
    obtain ⟨hi, -⟩ := List.getElem?_eq_some_iff.1 hposted
    exact lt_numSessions (p := .recvOp) hL (by rw [marking_recvOp]; exact Nat.zero_lt_of_lt hi)

/-- **A completion that is dequeued has an owner.** -/
theorem dequeued_moves (hL : ∀ a, Life (s.marking a)) {completion : Completion} {error : Option Nat} {owner : Bool}
    (hw : s.workers t = ⟨.idle, none, none⟩) (h : Dequeued error a (s.session a) completion x task' owner) :
    Moves s (((s.setSession a x).goto t task').dispatch owner) (.dequeue t completion error) a := by
  cases h with
  | connect ops hops =>
    have hne : (s.session a).connectEvent.ops ≠ [] := by rw [hops]; exact List.cons_ne_nil _ _
    rw [dispatch_of_owner (connectEvent_owned (hL a) (.inl hne))]
    refine ⟨rfl, .connectComplete (error ≠ none), .setGoto [] [.opening false] [.connectOp]
      [.connects, if decide (error ≠ none) = true then .connectFailed else .connectOk] hw rfl rfl rfl
      (fun m c p => ?_) (fun p hp => ?_) trivial, t, error, rfl, decide_eq_true_iff⟩
    · cases error <;> cases p <;> first | rfl | simp [Session.part, hops]
    · rw [List.mem_singleton.1 hp]
      cases error <;> rfl
  | disconnect ops hops =>
    have hne : (s.session a).disconnectEvent.ops ≠ [] := by rw [hops]; exact List.cons_ne_nil _ _
    rw [dispatch_of_owner (disconnectEvent_owned (hL a) (.inl hne))]
    refine ⟨rfl, .closeComplete, .setGoto [] [.partClearing] [.disconnectOp]
      [.disconnects] hw rfl rfl rfl (fun m c p => ?_) (fun p hp => ?_) trivial, t, error, rfl⟩
    · cases p <;> first | rfl | simp [Session.part, hops]
    · rw [List.mem_singleton.1 hp]
      rfl
  | accept accepts haccepts =>
    rw [dispatch_of_owner rfl]
    refine ⟨rfl, .acceptComplete, .setGoto [] [.accepting] [.acceptOp]
      [] hw rfl rfl rfl (fun m c p => ?_) (fun _ _ => rfl) trivial, trivial⟩
    cases p <;> first | rfl | simp [Session.part, haccepts]
  | recv i bytes posted hposted _ =>
    obtain ⟨hi, -⟩ := List.getElem?_eq_some_iff.1 hposted
    have hne : (s.session a).recvEvent.ops ≠ [] := List.length_pos_iff.1 (Nat.zero_lt_of_lt hi)
    rw [dispatch_of_owner (recvEvent_owned (hL a) (.inl hne))]
    refine ⟨rfl, .recvComplete (bytes.length = 0), .setGoto [] [.recvClearing (bytes.length = 0)]
      [.recvOp] [] hw rfl rfl rfl (fun m c p => ?_) (fun _ _ => rfl) trivial,
      t, i, bytes, error, rfl, decide_eq_true_iff⟩
    have hlen := List.length_eraseIdx_of_lt hi
    cases p <;> first | rfl | (simp only [Session.part, hlen, List.count_cons_self, List.count_nil]; omega)

theorem complete_moves (hO : ∀ a, ∃ w, SendOwned (s.session a).send w) {i numOfBytes : Nat} {error : Option Nat}
    {send : SendState Tid Buf} (hw : s.workers t = ⟨.idle, none, none⟩)
    (he : sendStep (s.session a).send (.complete t i numOfBytes) = some send) :
    Moves s ((s.setSend t a .idle send).dispatch (s.session a).send.sendEvent.owner)
      (.dequeue t (.send a i numOfBytes) error) a := by
  obtain ⟨w, hown⟩ := hO a
  simp only [sendStep] at he
  split at he
  · split at he
    · rename_i hi
      rw [dispatch_of_owner (hown.owner_of_flight (List.length_pos_iff.1 (Nat.zero_lt_of_lt hi)))]
      cases he
      refine ⟨rfl, .sendComplete, .of_marks [] [.sending] [.sendOp] [] []
        rfl ?_ ?_ rfl (fun p => ?_) (fun _ _ => rfl) (fun b hb => ⟨update_of_ne hb .., .rfl, .rfl⟩) trivial, trivial⟩
      · rw [hw]
        exact .refl _
      · refine .of_eq ?_
        simp [ServiceWorker.marks, Task.place, SendState.goto, SendPc.isIdle]
      · have hlen := List.length_eraseIdx_of_lt hi
        simp only [setSend, setWorker, setSession, update_self, SendState.goto]
        cases p <;> first | rfl | (simp only [Session.part, hlen, List.count_cons_self, List.count_nil]; omega)
    · cases he
  · cases he

/-! ## Every step -/

omit [DecidableEq Tid] in
theorem marking_eq_zero {p : Place} (hp : p.inCode = true) (h : ∀ t, (a, p) ∉ (s.workers t).marks) :
    s.marking a p = 0 := by
  by_contra hn
  obtain ⟨t, ht⟩ := mem_marks_of_pos hp (Nat.pos_of_ne_zero hn)
  exact h t ht

omit [DecidableEq Tid] in
theorem live_eq_zero (hL : ∀ a, Life (s.marking a)) (hO : ∀ a, ∃ w, SendOwned (s.session a).send w)
    (h : ¬ s.referenced a) : ∀ p ∈ livePlaces, s.marking a p = 0 := by
  simp only [referenced, not_or, Bool.not_eq_true, not_exists, not_not] at h
  obtain ⟨h1, h2, h3, h4, h5, h6, h7⟩ := h
  obtain ⟨w, hown⟩ := hO a
  have hcode : ∀ p, p.inCode = true → s.marking a p = 0 := fun p hp =>
    marking_eq_zero hp (fun t ht => h7 t (uses_iff.2 ⟨p, ht⟩))
  have hfacts := (hL a).facts
  have e1 : s.marking a .connectOwner = 0 := by rw [marking_connectOwner, h1]; rfl
  have e2 : s.marking a .disconnectOwner = 0 := by rw [marking_disconnectOwner, h2]; rfl
  have e3 : s.marking a .recvOwner = 0 := by rw [marking_recvOwner, h3]; rfl
  have e4 : s.marking a .sendOp = 0 := by
    have := hown.outstanding_le
    rw [h4, Bool.toNat_false] at this
    rw [marking_flag _ _ rfl]
    exact Nat.le_zero.1 this
  have e5 : s.marking a .acceptOp = 0 := by
    rw [marking_flag _ _ rfl]
    simp [Session.part, h5]
  have e6 : s.marking a .member = 0 := by
    rw [marking_member]
    simp [h6]
  have e7 := hfacts.connectOwner
  have e8 := hfacts.disconnectOwner
  have e9 := hfacts.recvOwner
  intro p hp
  by_cases hc : p.inCode = true
  · exact hcode p hc
  · cases p with
    | connectOp | recvOp | disconnectOp => omega
    | sendOp | acceptOp | connectOwner | recvOwner | disconnectOwner | member => assumption
    | connected | created | destroyed | connects | added | greeted | disconnects | parted | released | lost
    | connectOk | connectFailed | accepted => exact absurd hp (by decide)
    | _ => exact absurd rfl hc

omit [DecidableEq Tid] in
theorem destroy_moved (hL : ∀ a, Life (s.marking a)) (hO : ∀ a, ∃ w, SendOwned (s.session a).send w)
    (hcreated : a < s.numSessions) (hd : (s.session a).destroyed = false) (h : ¬ s.referenced a) :
    Moved s (s.setSession a { s.session a with destroyed := true }) a .destroy where
  guard := by
    refine ⟨?_, live_eq_zero hL hO h⟩
    rw [marking_flag _ _ rfl]
    simp [Session.part, hcreated]
  fires := by
    refine ⟨fun p => Nat.zero_le _, fun p => ?_⟩
    simp only [marking, setSession, update_self]
    cases p <;> first | rfl | simp [Session.part, hd, LifeRule.rule]
  others b hb := by
    funext p
    unfold marking
    rw [setSession]
    simp only [update_of_ne hb]

/-- **Every step moves one session by one rule**, and no assertion fails. -/
theorem step_moves (hL : ∀ a, Life (s.marking a)) (hO : ∀ a, ∃ w, SendOwned (s.session a).send w)
    (hB : BroadcastsMembers s) {type : ServiceType} {junk : Nat → BYTE} {s' : ServiceState Tid K}
    (he : serviceStep type junk s act = some s') : ∃ a, Moves s s' act a := by
  cases serviceStep_effect he with
  | task hw h => exact ⟨_, taskStep_moves hL hw h⟩
  | lock hw h => exact ⟨_, lockStep_moves hL hw h⟩
  | goOn hw h _ =>
    exact ⟨0, rfl, .stay, .stays 0 rfl (by rw [hw, ServiceWorker.marks, ServiceWorker.marks, h.place]) rfl rfl rfl,
      trivial⟩
  | ret hw h _ => exact ⟨_, ret_moves _ hw h⟩
  | callSend hw h hsend => exact ⟨_, callSend_moves _ hw h.place (h.added hL hB hw) hsend⟩
  | sending hc hs hsend => exact ⟨_, sendNext_moves hc hs hsend⟩
  | hangUp hw h hc => exact ⟨_, hangUp_moves hw h hc⟩
  | hungUp hw h hc => exact ⟨_, hungUp_moves hw h hc⟩
  | close hc h => exact ⟨_, closeStep_moves hL hc h⟩
  | create hw h => exact ⟨_, creates_moves hL hw h⟩
  | startAccept hw _ => exact ⟨0, rfl, .stay, .stays 0 rfl (by rw [hw]; rfl) rfl rfl rfl, trivial⟩
  | take hw _ h => exact ⟨_, dequeued_moves hL hw h⟩
  | takeSend hw _ hsend => exact ⟨_, complete_moves hO hw hsend⟩
  | @releaseFails t answer a hw _ hmem =>
    have := (hL a).facts.member_of_releasing (marking_pos_of_task (t := t) (by rw [hw]; rfl))
    rw [marking_member] at this
    simp [hmem] at this
  | destroy hcreated hd href => exact ⟨_, rfl, .destroy, destroy_moved hL hO hcreated hd href, trivial⟩

end ServiceState
end Geon
