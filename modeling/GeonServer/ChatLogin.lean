import GeonServer.ChatHeard
/-!
# ChatLogin — what the server has done when it answers a login

`LoginView` is what the handlers keep for themselves and how many `S_LOGIN`s each session has been given, and `LoginStep`
says what a step can do to it (`chatStep_login`).  A session that has been answered has its two players, unless
`OnDisconnected` has been there (`LoginInv`), and it has been answered no more often than it has asked
(`LoginStep.answers`, `LoginStep.made`).
-/
namespace Geon

open Lts Function

variable {Tid Sid : Type} [DecidableEq Tid] [DecidableEq Sid] [Fintype Tid]

/-- An `S_LOGIN` that says the session has logged in. -/
def SendBufferRef.isLogin (sendBuffer : SendBufferRef) : Bool :=
  match sendBuffer.pkt with
  | .S_LOGIN pkt => pkt.success
  | _ => false

/-- The buffers of a kind a session has been given: those it has pushed, and those a thread is about to push. -/
def SendState.given {Buf : Type} (p : Buf → Bool) (s : SendState Tid Buf) : Nat :=
  s.pushed.countP p + tally (fun pc => pc.entering.countP p) s.pcs

/-- What a packet that comes to a handler asks for, or that a session is gone. -/
inductive Request (Sid : Type)
  | nothing
  | login (a : Sid)
  | enter (a : Sid)
  | chat (msg : List BYTE)
  | leave (a : Sid)
  deriving DecidableEq

omit [DecidableEq Sid] in
/-- No packet is handled. -/
def Request.quiet : Request Sid → Bool
  | .nothing | .leave _ => true
  | _ => false

omit [DecidableEq Sid] in
def Request.logins : Request Sid → Nat
  | .login _ => 1
  | _ => 0

omit [DecidableEq Sid] in
def Request.chats : Request Sid → Nat
  | .chat _ => 1
  | _ => 0

omit [DecidableEq Sid] in
theorem logins_of_quiet {asks : Request Sid} (h : asks.quiet = true) : asks.logins = 0 := by
  cases asks <;> first | rfl | cases h

omit [DecidableEq Sid] in
theorem chats_of_quiet {asks : Request Sid} (h : asks.quiet = true) : asks.chats = 0 := by
  cases asks <;> first | rfl | cases h

omit [DecidableEq Tid] [DecidableEq Sid] [Fintype Tid] in
theorem isChat_of_pkt {b : SendBufferRef} {pkt : Protocol.S_CHAT} (h : b.pkt = .S_CHAT pkt) : b.isChat = true := by
  rw [SendBufferRef.isChat, h]

structure LoginView (Tid Sid : Type) where
  handler : Tid → Handler Sid
  players : Sid → List (Player Sid)
  current : Sid → Option (Player Sid)
  disconnected : Sid → Bool
  created : List (Player Sid)
  connected : Sid → Bool
  logins : Sid → Nat
  called : Tid → List (Unit × Option (RoomJob Sid))

omit [DecidableEq Tid] [DecidableEq Sid] in
def ChatState.view (s : ChatState Tid Sid) : LoginView Tid Sid where
  handler t := (s.workers t).handler
  players a := (s.sessions a).players
  current a := (s.sessions a).currentPlayer
  disconnected a := (s.sessions a).disconnected
  created := s.created
  connected a := (s.sessions a).send.connected
  logins a := (s.sessions a).send.given SendBufferRef.isLogin
  called t := (s.jobs.threads t).called

/-- The sessions are given `S_LOGIN`s, at most this many, and all of them while they are connected. -/
structure Gives (v : LoginView Tid Sid) (connected : Sid → Bool) (logins n : Sid → Nat) : Prop where
  le : ∀ a, logins a ≤ v.logins a + n a
  ge : ∀ a, connected a = true → v.connected a = true ∧ v.logins a + n a ≤ logins a

/-- **What a step can do** for a request. -/
inductive LoginStep (v : LoginView Tid Sid) : Request Sid → LoginView Tid Sid → Prop
  /-- No `S_LOGIN` is given to a session. -/
  | quiet {connected : Sid → Bool} {logins : Sid → Nat} (hgives : Gives v connected logins (fun _ => 0)) :
      LoginStep v .nothing { v with connected := connected, logins := logins }
  /-- A chat is handed to the room. -/
  | chat {t : Tid} {b : SendBufferRef} {msg : List BYTE} (hb : b.pkt = .S_CHAT ⟨0, msg⟩) :
      LoginStep v (.chat msg) { v with called := update v.called t (v.called t ++ [((), some (.BroadCast b))]) }
  | login {t : Tid} {a : Sid} (hidle : v.handler t = .none) :
      LoginStep v (.login a) { v with handler := update v.handler t (.login a ⟨true, []⟩) }
  | enter {t : Tid} {a : Sid} {player : Player Sid} (hidle : v.handler t = .none) (hplayer : player ∈ v.players a) :
      LoginStep v (.enter a) { v with
        handler := update v.handler t (.enterGame a)
        current := update v.current a (some player)
        called := update v.called t (v.called t ++ [((), some (.Enter player))]) }
  | disconnect {t : Tid} {a : Sid} {called : Tid → List (Unit × Option (RoomJob Sid))} (hidle : v.handler t = .none)
      (hcalled : called = v.called ∨
        ∃ player ∈ v.current a, called = update v.called t (v.called t ++ [((), some (.Leave player))])) :
      LoginStep v (.leave a) { v with
        handler := update v.handler t (.disconnected a)
        disconnected := update v.disconnected a true
        called := called }
  /-- `Handle_C_LOGIN` makes the next player. -/
  | create {t : Tid} {a : Sid} {loginPkt : Protocol.S_LOGIN} (player : Player Sid) (reply : Protocol.Player)
      (hhandler : v.handler t = .login a loginPkt) (hlt : loginPkt.players.length < loginPlayers.length)
      (howner : player.ownerSession = a) :
      LoginStep v .nothing { v with
        handler := update v.handler t (.login a { loginPkt with players := loginPkt.players ++ [reply] })
        players := update v.players a (v.players a ++ [player])
        created := v.created ++ [player] }
  /-- It answers. -/
  | reply {t : Tid} {a : Sid} {loginPkt : Protocol.S_LOGIN} {connected : Sid → Bool} {logins : Sid → Nat}
      (hhandler : v.handler t = .login a loginPkt) (hall : loginPlayers.length ≤ loginPkt.players.length)
      (hgives : Gives v connected logins (fun b => if b = a then loginPkt.success.toNat else 0)) :
      LoginStep v .nothing
        { v with handler := update v.handler t .none, connected := connected, logins := logins }
  /-- `Handle_C_ENTER_GAME` answers. -/
  | entered {t : Tid} {a : Sid} {connected : Sid → Bool} {logins : Sid → Nat} (hhandler : v.handler t = .enterGame a)
      (hgives : Gives v connected logins (fun _ => 0)) :
      LoginStep v .nothing
        { v with handler := update v.handler t .none, connected := connected, logins := logins }
  /-- `OnDisconnected` lets go of the players. -/
  | gone {t : Tid} {a : Sid} (hhandler : v.handler t = .disconnected a) :
      LoginStep v .nothing { v with
        handler := update v.handler t .none
        players := update v.players a []
        current := update v.current a none }

/-! ## Every step is one of these -/

section
variable {Buf : Type} {s s' : SendState Tid Buf} {t : Tid} (p : Buf → Bool)

omit [DecidableEq Tid] in
theorem given₀ : (sendState₀ : SendState Tid Buf).given p = 0 := by
  simp only [SendState.given, sendState₀, List.countP_nil, Nat.zero_add]
  exact tally_const_zero _ _ rfl

/-- A step of one thread, with what it pushes and what it is about to push. -/
theorem given_of_step {more now : List Buf} (hpushed : s'.pushed = s.pushed ++ more) (hnow : (s'.pcs t).entering = now)
    (hothers : ∀ u, u ≠ t → s'.pcs u = s.pcs u) :
    s'.given p + (s.pcs t).entering.countP p = s.given p + more.countP p + now.countP p := by
  have hpcs : s'.pcs = update s.pcs t (s'.pcs t) := by
    funext u
    by_cases hu : u = t
    · rw [hu, update_self]
    · rw [update_of_ne hu, hothers u hu]
  have htally := tally_update (fun pc : SendPc Buf => pc.entering.countP p) s.pcs t (s'.pcs t)
  rw [← hpcs, hnow] at htally
  rw [SendState.given, SendState.given, hpushed, List.countP_append]
  omega

theorem given_of_next {wsaSend : WsaResult} (he : sendStep s (.next t wsaSend) = some s') :
    s'.given p = s.given p := by
  obtain ⟨hpushed, hnil, hothers⟩ := sendStep_next he
  have := given_of_step p hpushed hnil hothers
  rw [List.countP_nil] at this
  omega

theorem given_of_complete {i numOfBytes : Nat} (he : sendStep s (.complete t i numOfBytes) = some s') :
    s'.given p = s.given p := by
  obtain ⟨hpushed, hidle, hnil, hothers⟩ := sendStep_complete he
  have hmore : s'.pushed = s.pushed ++ [] := by rw [hpushed, List.append_nil]
  have := given_of_step p hmore hnil hothers
  rw [hidle] at this
  simpa [SendPc.entering] using this

/-- A step of a session's sending side gives it `n` buffers of a kind, or fewer if it is disconnected. -/
structure Passes (s s' : SendState Tid Buf) (n : Nat) : Prop where
  le : s'.given p ≤ s.given p + n
  ge : s'.connected = true → s.connected = true ∧ s.given p + n ≤ s'.given p

theorem passes_inner {act : SendAct Tid Buf} (hact : ∀ u b, act ≠ .send u b) (he : sendStep s act = some s') :
    Passes p s s' 0 := by
  cases act with
  | send u b => exact absurd rfl (hact u b)
  | next u wsaSend =>
    have hgiven := given_of_next p he
    exact ⟨hgiven.le, fun hc => ⟨sendStep_connected he hc, hgiven.ge⟩⟩
  | complete u i numOfBytes =>
    have hgiven := given_of_complete p he
    exact ⟨hgiven.le, fun hc => ⟨sendStep_connected he hc, hgiven.ge⟩⟩
  | disconnect =>
    cases he
    exact ⟨le_refl _, fun hc => by cases hc⟩

/-- **A call of `Send`** gives the session its buffer. -/
theorem passes_send {b : Buf} (he : sendStep s (.send t b) = some s') : Passes p s s' (p b).toNat := by
  obtain ⟨hpushed, hidle, -, hothers⟩ := sendStep_send he
  have hnone : (s.pcs t).entering = [] := by
    rw [hidle]
    rfl
  simp only [sendStep, hidle, Option.some.injEq] at he
  by_cases hc : s.connected = false
  · rw [if_pos hc] at he
    subst he
    exact ⟨Nat.le_add_right _ _, fun hc' => by rw [hc] at hc'; cases hc'⟩
  · rw [if_neg hc] at he
    subst he
    have hmore : (s.goto t (.sendPush b)).pushed = s.pushed ++ [] := by rw [hpushed, List.append_nil]
    have hnow : ((s.goto t (.sendPush b)).pcs t).entering = [b] := by simp [SendState.goto, SendPc.entering]
    have hgiven := given_of_step p hmore hnow hothers
    have hb : (if p b = true then 1 else 0) = (p b).toNat := by cases p b <;> rfl
    rw [hnone, List.countP_nil, List.countP_singleton, hb] at hgiven
    exact ⟨by omega, fun hc => ⟨hc, by omega⟩⟩

end

variable {s s' : ChatState Tid Sid} {t : Tid}

omit [DecidableEq Tid] in
theorem view_setSession (s : ChatState Tid Sid) (a : Sid) (session : GameSession Tid Sid) :
    (s.setSession a session).view = { s.view with
      players := update s.view.players a session.players
      current := update s.view.current a session.currentPlayer
      disconnected := update s.view.disconnected a session.disconnected
      connected := update s.view.connected a session.send.connected
      logins := update s.view.logins a (session.send.given SendBufferRef.isLogin) } := by
  simp only [ChatState.view, ChatState.setSession, update_map GameSession.players, update_map GameSession.disconnected,
    update_map GameSession.currentPlayer,
    update_map (fun session : GameSession Tid Sid => session.send.connected),
    update_map (fun session : GameSession Tid Sid => session.send.given SendBufferRef.isLogin)]

omit [DecidableEq Sid] in
theorem view_setWorker (s : ChatState Tid Sid) (t : Tid) (w : Worker Sid) :
    (s.setWorker t w).view = { s.view with handler := update s.view.handler t w.handler } := by
  simp only [ChatState.view, ChatState.setWorker, update_map Worker.handler]

theorem view_setSend (s : ChatState Tid Sid) (t : Tid) (a : Sid) (send : SendState Tid SendBufferRef) :
    (s.setSend t a send).view = { s.view with
      connected := update s.view.connected a send.connected
      logins := update s.view.logins a (send.given SendBufferRef.isLogin) } := by
  rw [ChatState.setSend, view_setWorker, view_setSession]
  simp only [ChatState.view, update_eq_self]

/-- A handler's own bookkeeping. -/
theorem view_handler (s : ChatState Tid Sid) (t : Tid) (a : Sid) (handler : Handler Sid) (players : List (Player Sid))
    (currentPlayer : Option (Player Sid)) (room disconnected : Bool) :
    ((s.setSession a ⟨(s.sessions a).send, players, currentPlayer, room, disconnected⟩).setWorker t
      { s.workers t with handler := handler }).view = { s.view with
        handler := update s.view.handler t handler
        players := update s.view.players a players
        current := update s.view.current a currentPlayer
        disconnected := update s.view.disconnected a disconnected } := by
  rw [view_setWorker, view_setSession]
  simp only [ChatState.view, update_eq_self]

omit [DecidableEq Tid] in
@[simp] theorem update_players (s : ChatState Tid Sid) (a : Sid) :
    update s.view.players a (s.sessions a).players = s.view.players := update_eq_self a s.view.players

omit [DecidableEq Tid] in
@[simp] theorem update_current (s : ChatState Tid Sid) (a : Sid) :
    update s.view.current a (s.sessions a).currentPlayer = s.view.current := update_eq_self a s.view.current

omit [DecidableEq Tid] in
@[simp] theorem update_disconnected (s : ChatState Tid Sid) (a : Sid) :
    update s.view.disconnected a (s.sessions a).disconnected = s.view.disconnected := update_eq_self a s.view.disconnected

omit [DecidableEq Sid] in
theorem doAsync_view {job : RoomJob Sid} (he : s.doAsync t job = some s') :
    s'.view = { s.view with called := update s.view.called t (s.view.called t ++ [((), some job)]) } := by
  obtain ⟨jobs, hjobs, rfl⟩ := Option.map_eq_some_iff.1 he
  simp only [ChatState.view, jobStep_called_push hjobs]

omit [DecidableEq Tid] in
/-- A step in the sending code of one session. -/
theorem gives_setSend (s : ChatState Tid Sid) (a : Sid) {send : SendState Tid SendBufferRef} {n : Nat}
    (h : Passes SendBufferRef.isLogin (s.sessions a).send send n) :
    Gives s.view (update s.view.connected a send.connected)
      (update s.view.logins a (send.given SendBufferRef.isLogin)) (fun b => if b = a then n else 0) := by
  refine ⟨fun b => ?_, fun b hb => ?_⟩ <;> by_cases hba : b = a
  · subst hba
    rw [update_self, if_pos rfl]
    exact h.le
  · rw [update_of_ne hba, if_neg hba, Nat.add_zero]
  · subst hba
    rw [update_self] at hb ⊢
    rw [if_pos rfl]
    exact h.ge hb
  · rw [update_of_ne hba] at hb ⊢
    rw [if_neg hba, Nat.add_zero]
    exact ⟨hb, le_refl _⟩

theorem callSend_view {a : Sid} {b : SendBufferRef} (he : s.callSend t a b = some s') : ∃ connected logins,
    Gives s.view connected logins (fun c => if c = a then b.isLogin.toNat else 0) ∧
      s'.view = { s.view with connected := connected, logins := logins } := by
  obtain ⟨send, hs, rfl⟩ := Option.map_eq_some_iff.1 he
  exact ⟨_, _, gives_setSend s a (passes_send _ hs), view_setSend ..⟩

/-- A handler's reply. -/
theorem makeAndSend_view {handler : Handler Sid} {a : Sid} {pkt : ServerPacket}
    (he : (s.setWorker t { s.workers t with handler := handler }).makeAndSend t a pkt = some s') : ∃ connected logins,
    Gives s.view connected logins (fun c => if c = a then (SendBufferRef.isLogin ⟨0, pkt⟩).toNat else 0) ∧
      s'.view = { s.view with
        handler := update s.view.handler t handler, connected := connected, logins := logins } := by
  obtain ⟨connected, logins, hgives, hview⟩ := callSend_view he
  have hset := view_setWorker s t { s.workers t with handler := handler }
  refine ⟨connected, logins, ⟨hgives.le, hgives.ge⟩, ?_⟩
  rw [hview, show ChatState.view { s.setWorker t { s.workers t with handler := handler } with
    numBuffers := (s.setWorker t { s.workers t with handler := handler }).numBuffers + 1 } = _ from hset]

omit [DecidableEq Sid] in
theorem jobs_view (s : ChatState Tid Sid) {a : JobAct Tid Unit (RoomJob Sid)} {jobs : JobState Tid Unit (RoomJob Sid)}
    (he : jobStep s.jobs a = some jobs) (ha : ∀ t job pushOnly, a ≠ .push t () job pushOnly) :
    ChatState.view { s with jobs := jobs } = s.view := by
  simp only [ChatState.view, funext (jobStep_called ha he)]

omit [DecidableEq Sid] [Fintype Tid] [DecidableEq Tid] in
theorem Gives.none (v : LoginView Tid Sid) : Gives v v.connected v.logins (fun _ => 0) :=
  ⟨fun _ => le_refl _, fun _ h => ⟨h, le_refl _⟩⟩

omit [Fintype Tid] [DecidableEq Tid] in
theorem Gives.of_zero {v : LoginView Tid Sid} {connected : Sid → Bool} {logins : Sid → Nat} {a : Sid}
    (h : Gives v connected logins (fun b => if b = a then 0 else 0)) : Gives v connected logins (fun _ => 0) := by
  simpa only [ite_self] using h

omit [Fintype Tid] in
theorem LoginStep.same {v v' : LoginView Tid Sid} (h : v' = v) : LoginStep v .nothing v' := by
  rw [h]
  exact .quiet (.none v)

/-- A step in the sending code, not a call of `Send`. -/
theorem LoginStep.setSend {a : Sid} {act : SendAct Tid SendBufferRef} {send : SendState Tid SendBufferRef}
    (hact : ∀ u b, act ≠ .send u b) (he : sendStep (s.sessions a).send act = some send) :
    LoginStep s.view .nothing (s.setSend t a send).view := by
  rw [view_setSend]
  exact .quiet (Gives.of_zero (gives_setSend s a (passes_inner _ hact he)))

def ChatAct.asks : ChatAct Tid Sid → Request Sid
  | .handle _ a (.Handle_C_LOGIN _) => .login a
  | .handle _ a (.Handle_C_ENTER_GAME _) => .enter a
  | .handle _ _ (.Handle_C_CHAT pkt) => .chat pkt.msg
  | .onDisconnected _ a => .leave a
  | _ => .nothing

theorem handle_login {a : Sid} {call : ClientPacketHandler.Call} (hbase : s.atBase t = true)
    (he : s.handle t a call = some s') : LoginStep s.view (ChatAct.handle t a call).asks s'.view := by
  have hidle : s.view.handler t = .none := (atBase_iff.1 hbase).2.1
  cases call with
  | Handle_INVALID =>
    cases he
    exact .same rfl
  | Handle_C_LOGIN pkt =>
    cases he
    rw [view_setWorker]
    exact .login hidle
  | Handle_C_ENTER_GAME pkt =>
    simp only [ChatState.handle] at he
    split at he
    · cases he
    · rename_i player hplayer
      rw [doAsync_view he, view_handler, update_players, update_disconnected]
      exact .enter hidle (List.mem_of_getElem? hplayer)
  | Handle_C_CHAT pkt =>
    rw [doAsync_view he]
    exact .chat rfl

theorem onDisconnected_login {a : Sid} (hbase : s.atBase t = true) (he : s.onDisconnected t a = some s') :
    LoginStep s.view (.leave a) s'.view := by
  have hidle : s.view.handler t = .none := (atBase_iff.1 hbase).2.1
  simp only [ChatState.onDisconnected] at he
  split at he
  · rename_i player hcurrent hroom
    rw [doAsync_view he, view_handler, update_players, update_current]
    exact .disconnect hidle (.inr ⟨player, hcurrent, rfl⟩)
  · cases he
    rw [view_handler, update_players, update_current]
    exact .disconnect hidle (.inl rfl)

theorem handlerNext_login (he : s.handlerNext t = some s') : LoginStep s.view .nothing s'.view := by
  simp only [ChatState.handlerNext] at he
  split at he
  · cases he
  · rename_i a loginPkt hhandler
    split at he
    · rename_i name type hplayer
      cases he
      obtain ⟨hlt, -⟩ := List.getElem?_eq_some_iff.1 hplayer
      have hstep := LoginStep.create (v := s.view) ⟨s.idGenerator, name, type, a⟩ ⟨0, name, type⟩ hhandler hlt rfl
      rw [← update_current s a, ← update_disconnected s a] at hstep
      rw [view_handler]
      exact hstep
    · rename_i hplayer
      obtain ⟨connected, logins, hgives, hview⟩ := makeAndSend_view he
      rw [hview]
      exact .reply hhandler (List.getElem?_eq_none_iff.1 hplayer) hgives
  · rename_i a hhandler
    split at he
    · cases he
    · obtain ⟨connected, logins, hgives, hview⟩ := makeAndSend_view he
      rw [hview]
      exact .entered hhandler hgives.of_zero
  · rename_i a hhandler
    cases he
    rw [view_handler, update_disconnected]
    exact .gone hhandler

theorem runJob_login {job : RoomJob Sid} (hchat : ∀ b, job = .BroadCast b → b.isLogin = false)
    (he : s.runJob t job = some s') : LoginStep s.view .nothing s'.view := by
  have hbody : ∀ (s₁ : ChatState Tid Sid) (body : JobBody), s₁.view = s.view → s₁.workers = s.workers →
      (s₁.setWorker t { s.workers t with body := body }).view = s.view := fun s₁ body hv hw => by
    rw [view_setWorker, hv]
    exact congrArg (fun handler => { s.view with handler := handler }) (update_eq_self t s.view.handler)
  unfold ChatState.runJob at he
  split at he
  case h_1 | h_2 | h_3 =>
    cases he
    exact .same (hbody _ _ rfl rfl)
  case h_4 after b hwhere =>
    split at he
    · cases he
      exact .same (hbody _ _ rfl rfl)
    · rename_i key player tail hnext
      obtain ⟨connected, logins, hgives, hview⟩ := callSend_view he
      rw [hbody { s with sendCalls := s.sendCalls ++ [(b, player)] } (.loop (some key)) rfl rfl] at hgives hview
      rw [hchat b rfl, Bool.toNat_false] at hgives
      rw [hview]
      exact .quiet hgives.of_zero
  case h_5 => cases he
  case h_6 =>
    obtain ⟨jobs, hjobs, rfl⟩ := Option.map_eq_some_iff.1 he
    exact .same (hbody _ _ (jobs_view s hjobs (fun _ _ _ h => by cases h)) rfl)

/-- **Every step is one of these.** -/
theorem chatStep_login {act : ChatAct Tid Sid}
    (hchat : ∀ t b, (s.jobs.threads t).runs (.BroadCast b) → b.isLogin = false) (he : chatStep s act = some s') :
    LoginStep s.view act.asks s'.view := by
  cases act with
  | handle t a call =>
    simp only [chatStep] at he
    split at he
    · exact handle_login ‹_› he
    · cases he
  | onDisconnected t a =>
    simp only [chatStep] at he
    split at he
    · rename_i h
      exact onDisconnected_login h.1 he
    · cases he
  | pop t =>
    simp only [chatStep] at he
    split at he
    · obtain ⟨jobs, hjobs, rfl⟩ := Option.map_eq_some_iff.1 he
      exact .same (jobs_view s hjobs (fun _ _ _ h => by cases h))
    · cases he
  | complete t a i numOfBytes =>
    simp only [chatStep] at he
    split at he
    · obtain ⟨send, hs, rfl⟩ := Option.map_eq_some_iff.1 he
      exact .setSend (fun _ _ h => by cases h) hs
    · cases he
  | disconnect a =>
    simp only [chatStep] at he
    obtain ⟨send, hs, rfl⟩ := Option.map_eq_some_iff.1 he
    rw [view_setSession, update_players, update_current, update_disconnected]
    exact .quiet (Gives.of_zero (gives_setSend s a (passes_inner _ (fun _ _ h => by cases h) hs)))
  | next t timeout wsaSend =>
    simp only [chatStep, ChatState.next] at he
    split at he
    · obtain ⟨send, hs, rfl⟩ := Option.map_eq_some_iff.1 he
      exact .setSend (fun _ _ h => by cases h) hs
    · split at he
      · exact handlerNext_login he
      · rename_i q jobs i fs hf
        split at he
        · cases he
        · rename_i job hjob
          exact runJob_login (fun b hb => hchat t b ⟨q, jobs, i, fs, hf, hb ▸ hjob⟩) he
      · obtain ⟨jobs, hjobs, rfl⟩ := Option.map_eq_some_iff.1 he
        exact .same (jobs_view s hjobs (fun _ _ _ h => by cases h))

/-! ## A session that has been answered -/

/-- What a thread in a handler goes by, as long as `OnDisconnected` has not been there. -/
def Handler.Ok (v : LoginView Tid Sid) : Handler Sid → Prop
  | .none => True
  | .login a loginPkt => loginPkt.success = true ∧
      (v.disconnected a = true ∨ loginPkt.players.length ≤ (v.players a).length)
  | .enterGame a => v.disconnected a = true ∨ (v.current a).isSome = true
  | .disconnected a => v.disconnected a = true

/-- **The invariant of the logins.** -/
structure LoginInv (v : LoginView Tid Sid) : Prop where
  threads : ∀ t, (v.handler t).Ok v
  reply : ∀ a, 0 < v.logins a → v.disconnected a = true ∨ loginPlayers.length ≤ (v.players a).length
  own : ∀ a, ∀ player ∈ v.players a, player.ownerSession = a
  chats : ∀ t b, ((), some (.BroadCast b)) ∈ v.called t → b.isChat = true
  current : ∀ a player, v.current a = some player → player.ownerSession = a
  leaves : ∀ t player, ((), some (.Leave player)) ∈ v.called t → v.disconnected player.ownerSession = true

/-- Nothing is taken from a session but by `OnDisconnected`. -/
structure Later (v v' : LoginView Tid Sid) : Prop where
  disconnected : ∀ a, v.disconnected a = true → v'.disconnected a = true
  players : ∀ a, v'.disconnected a = true ∨ (v.players a).length ≤ (v'.players a).length
  current : ∀ a, (v.current a).isSome = true → v'.disconnected a = true ∨ (v'.current a).isSome = true

variable {v v' : LoginView Tid Sid} {asks : Request Sid}

omit [DecidableEq Tid] [DecidableEq Sid] [Fintype Tid] in
theorem Later.same (hdisconnected : v'.disconnected = v.disconnected) (hplayers : v'.players = v.players)
    (hcurrent : v'.current = v.current) : Later v v' :=
  ⟨fun a h => by rw [hdisconnected]; exact h, fun a => .inr (by rw [hplayers]), fun a h => .inr (by rw [hcurrent]; exact h)⟩

omit [DecidableEq Tid] [DecidableEq Sid] [Fintype Tid] in
theorem Later.enough (h : Later v v') {a : Sid} {n : Nat} (hn : v.disconnected a = true ∨ n ≤ (v.players a).length) :
    v'.disconnected a = true ∨ n ≤ (v'.players a).length := by
  rcases hn with hn | hn
  · exact .inl (h.disconnected a hn)
  · exact (h.players a).imp id (fun hle => le_trans hn hle)

omit [DecidableEq Tid] [DecidableEq Sid] [Fintype Tid] in
theorem Handler.Ok.later {handler : Handler Sid} (hok : handler.Ok v) (h : Later v v') : handler.Ok v' := by
  cases handler with
  | none => trivial
  | login a loginPkt => exact ⟨hok.1, h.enough hok.2⟩
  | enterGame a => exact hok.elim (fun hgone => .inl (h.disconnected a hgone)) (h.current a)
  | disconnected a => exact h.disconnected a hok

omit [DecidableEq Tid] [Fintype Tid] in
theorem update_true {f : Sid → Bool} (a : Sid) {b : Sid} (h : f b = true) : update f a true b = true := by
  by_cases hba : b = a
  · rw [hba, update_self]
  · rwa [update_of_ne hba]

omit [DecidableEq Tid] [Fintype Tid] in
theorem length_le_update {α : Type} (f : Sid → List α) (a : Sid) (more : List α) (b : Sid) :
    (f b).length ≤ (update f a (f a ++ more) b).length := by
  by_cases hba : b = a
  · rw [hba, update_self, List.length_append]
    exact Nat.le_add_right _ _
  · rw [update_of_ne hba]

omit [Fintype Tid] in
theorem LoginStep.later (hstep : LoginStep v asks v') (h : LoginInv v) : Later v v' := by
  cases hstep with
  | quiet | chat | login | reply | entered => exact .same rfl rfl rfl
  | @enter t a player hidle hplayer =>
    refine ⟨fun _ hb => hb, fun _ => .inr (le_refl _), fun b hb => .inr ?_⟩
    by_cases hba : b = a
    · simp only [hba, update_self, Option.isSome_some]
    · simp only [update_of_ne hba, hb]
  | @disconnect t a called hidle hcalled =>
    exact ⟨fun b hb => update_true a hb, fun _ => .inr (le_refl _), fun _ hb => .inr hb⟩
  | @create t a loginPkt player reply hhandler hlt howner =>
    exact ⟨fun _ hb => hb, fun b => .inr (length_le_update v.players a [player] b), fun _ hb => .inr hb⟩
  | @gone t a hhandler =>
    have hgone : v.disconnected a = true := by
      have := h.threads t
      rwa [hhandler] at this
    refine ⟨fun _ hb => hb, fun b => ?_, fun b hb => ?_⟩ <;> by_cases hba : b = a
    · exact .inl (hba ▸ hgone)
    · simp only [update_of_ne hba]
      exact .inr (le_refl _)
    · exact .inl (hba ▸ hgone)
    · simp only [update_of_ne hba]
      exact .inr hb

omit [DecidableEq Sid] [Fintype Tid] in
/-- The step of thread `t`. -/
theorem LoginInv.thread (h : LoginInv v) (hl : Later v v') {t : Tid} {handler : Handler Sid}
    (hh : v'.handler = update v.handler t handler) (hok : handler.Ok v') : ∀ u, (v'.handler u).Ok v' := fun u => by
  rw [hh]
  by_cases hut : u = t
  · rw [hut, update_self]
    exact hok
  · rw [update_of_ne hut]
    exact (h.threads u).later hl

omit [Fintype Tid] in
/-- The thread takes up what a step says it takes up. -/
theorem LoginStep.threads (hstep : LoginStep v asks v') (h : LoginInv v) : ∀ u, (v'.handler u).Ok v' := by
  have hl := hstep.later h
  cases hstep with
  | quiet | chat => exact fun u => (h.threads u).later hl
  | login hidle => exact h.thread hl rfl ⟨rfl, .inr (Nat.zero_le _)⟩
  | enter hidle hplayer =>
    refine h.thread hl rfl (.inr ?_)
    simp only [update_self, Option.isSome_some]
  | disconnect hidle hcalled => exact h.thread hl rfl (update_self ..)
  | @create t a loginPkt player reply hhandler hlt howner =>
    refine h.thread hl rfl ?_
    have hok := h.threads t
    rw [hhandler] at hok
    refine ⟨hok.1, hok.2.imp id (fun hle => ?_)⟩
    simp only [update_self, List.length_append, List.length_singleton]
    omega
  | reply | entered | gone => exact h.thread hl rfl trivial

omit [Fintype Tid] in
theorem LoginStep.own (hstep : LoginStep v asks v') (h : LoginInv v) : ∀ a, ∀ player ∈ v'.players a,
    player.ownerSession = a := by
  cases hstep with
  | quiet | chat | login | enter | disconnect | reply | entered => exact h.own
  | @create t a loginPkt player reply hhandler hlt howner =>
    intro b p hp
    have hp : p ∈ update v.players a (v.players a ++ [player]) b := hp
    by_cases hba : b = a
    · subst hba
      rw [update_self, List.mem_append, List.mem_singleton] at hp
      rcases hp with hp | rfl
      · exact h.own b p hp
      · exact howner
    · rw [update_of_ne hba] at hp
      exact h.own b p hp
  | @gone t a hhandler =>
    intro b p hp
    have hp : p ∈ update v.players a [] b := hp
    by_cases hba : b = a
    · rw [hba, update_self] at hp
      cases hp
    · rw [update_of_ne hba] at hp
      exact h.own b p hp

omit [Fintype Tid] in
/-- Only `OnDisconnected` is `OnDisconnected`. -/
theorem LoginStep.stays (hstep : LoginStep v asks v') (hasks : ∀ a, asks ≠ .leave a) :
    v'.disconnected = v.disconnected := by
  cases hstep with
  | @disconnect t a called hidle hcalled => exact absurd rfl (hasks a)
  | _ => rfl

omit [Fintype Tid] in
theorem LoginStep.current (hstep : LoginStep v asks v') (h : LoginInv v) : ∀ a player, v'.current a = some player →
    player.ownerSession = a := by
  cases hstep with
  | quiet | chat | login | disconnect | reply | entered | create => exact h.current
  | @enter t a player hidle hplayer =>
    intro b p hp
    have hp : update v.current a (some player) b = some p := hp
    by_cases hba : b = a
    · subst hba
      rw [update_self] at hp
      cases hp
      exact h.own b player hplayer
    · rw [update_of_ne hba] at hp
      exact h.current b p hp
  | @gone t a hhandler =>
    intro b p hp
    have hp : update v.current a none b = some p := hp
    by_cases hba : b = a
    · rw [hba, update_self] at hp
      cases hp
    · rw [update_of_ne hba] at hp
      exact h.current b p hp

omit [Fintype Tid] in
/-- **What is handed to the room**: the `Enter` of a session's player, what a packet says, or a `Leave`. -/
theorem LoginStep.hands (hstep : LoginStep v asks v') {t : Tid} {job : RoomJob Sid}
    (hcall : ((), some job) ∈ v'.called t) :
    ((), some job) ∈ v.called t ∨ (∃ b msg, job = .BroadCast b ∧ asks = .chat msg ∧ b.pkt = .S_CHAT ⟨0, msg⟩) ∨
      (∃ player, job = .Enter player) ∨
      ∃ player a, job = .Leave player ∧ player ∈ v.current a ∧ v'.disconnected a = true := by
  have hpush : ∀ {u : Tid} {job' : RoomJob Sid}, ((), some job) ∈
      update v.called u (v.called u ++ [((), some job')]) t → ((), some job) ∈ v.called t ∨ job = job' :=
    fun {u job'} h => by
      by_cases htu : t = u
      · subst htu
        rw [update_self, List.mem_append, List.mem_singleton] at h
        exact h.imp id (fun heq => Option.some.inj (congrArg Prod.snd heq))
      · rw [update_of_ne htu] at h
        exact .inl h
  cases hstep with
  | quiet | login | create | reply | entered | gone => exact .inl hcall
  | chat hb => exact (hpush hcall).imp id (fun heq => .inl ⟨_, _, heq, rfl, hb⟩)
  | enter hidle hplayer => exact (hpush hcall).imp id (fun heq => .inr (.inl ⟨_, heq⟩))
  | @disconnect u a called hidle hcalled =>
    rcases hcalled with rfl | ⟨player, hcurrent, rfl⟩
    · exact .inl hcall
    · exact (hpush hcall).imp id (fun heq => .inr (.inr ⟨player, a, heq, hcurrent, update_self ..⟩))

omit [Fintype Tid] in
theorem LoginStep.reply_ok (hstep : LoginStep v asks v') (h : LoginInv v) {a : Sid} (ha : 0 < v'.logins a) :
    v'.disconnected a = true ∨ loginPlayers.length ≤ (v'.players a).length := by
  have hl := hstep.later h
  refine hl.enough ?_
  cases hstep with
  | chat | login | enter | disconnect | create | gone => exact h.reply a ha
  | quiet hgives | entered _ hgives => exact h.reply a (lt_of_lt_of_le ha (hgives.le a))
  | @reply t b loginPkt connected logins hhandler hall hgives =>
    by_cases hab : a = b
    · subst hab
      have hok := h.threads t
      rw [hhandler] at hok
      exact hok.2.imp id (fun hle => le_trans hall hle)
    · have hle := hgives.le a
      rw [if_neg hab] at hle
      exact h.reply a (lt_of_lt_of_le ha hle)

omit [Fintype Tid] in
/-- **The step lemma of the logins.** -/
theorem LoginStep.inv (hstep : LoginStep v asks v') (h : LoginInv v) : LoginInv v' where
  threads := hstep.threads h
  reply _ ha := hstep.reply_ok h ha
  own := hstep.own h
  current := hstep.current h
  chats t b hcall := by
    rcases hstep.hands hcall with hold | ⟨b', msg, heq, -, hb⟩ | ⟨player, heq⟩ | ⟨player, a, heq, -, -⟩
    · exact h.chats t b hold
    · cases heq
      exact isChat_of_pkt hb
    · cases heq
    · cases heq
  leaves t player hcall := by
    rcases hstep.hands hcall with hold | ⟨b, msg, heq, -, -⟩ | ⟨player', heq⟩ | ⟨player', a, heq, hcurrent, ha⟩
    · exact (hstep.later h).disconnected _ (h.leaves t player hold)
    · cases heq
    · cases heq
    · cases heq
      rwa [h.current a player hcurrent]

omit [DecidableEq Tid] [DecidableEq Sid] in
theorem loginInv₀ : LoginInv (chatState₀ : ChatState Tid Sid).view where
  threads _ := trivial
  reply a h := absurd (given₀ SendBufferRef.isLogin) (Nat.ne_of_gt h)
  own _ _ h := by cases h
  current _ _ h := by cases h
  chats _ _ h := by cases h
  leaves _ _ h := by cases h

/-! ## One answer to one login, and two players -/

/-- Whether the handler is going to answer the session's login. -/
def Handler.answering (a : Sid) : Handler Sid → Nat
  | .login b _ => if b = a then 1 else 0
  | _ => 0

/-- The players the handler has still to make. -/
def Handler.making : Handler Sid → Nat
  | .login _ loginPkt => loginPlayers.length - loginPkt.players.length
  | _ => 0

def LoginView.answers (v : LoginView Tid Sid) (a : Sid) : Nat := v.logins a + tally (Handler.answering a) v.handler

def LoginView.made (v : LoginView Tid Sid) : Nat := v.created.length + tally Handler.making v.handler

/-- **A session is answered no more often than it asks**, and as often while it is connected. -/
theorem LoginStep.answers (hstep : LoginStep v asks v') (h : LoginInv v) (a : Sid) :
    v'.answers a ≤ v.answers a + (if asks = .login a then 1 else 0) ∧
    (v'.connected a = true → v.connected a = true ∧
      v.answers a + (if asks = .login a then 1 else 0) ≤ v'.answers a) := by
  have hthread := tally_update (Handler.answering a) v.handler
  -- a thread goes on, and the session is given nothing
  have hsame : ∀ {t : Tid} (handler : Handler Sid) {n : Nat},
      Handler.answering a handler = Handler.answering a (v.handler t) + n →
      v.logins a + tally (Handler.answering a) (update v.handler t handler) = v.answers a + n :=
    fun {t} handler {n} hn => by
      have := hthread t handler
      rw [LoginView.answers]
      omega
  cases hstep with
  | quiet hgives =>
    exact ⟨Nat.add_le_add_right (hgives.le a) _,
      fun hc => ⟨(hgives.ge a hc).1, Nat.add_le_add_right (hgives.ge a hc).2 _⟩⟩
  | chat hb => exact ⟨le_refl _, fun hc => ⟨hc, le_refl _⟩⟩
  | @login t b hidle =>
    have heq := hsame (t := t) (.login b ⟨true, []⟩) (n := if b = a then 1 else 0) (by
      rw [hidle]
      exact (Nat.zero_add _).symm)
    simp only [Request.login.injEq]
    exact ⟨heq.le, fun hc => ⟨hc, heq.ge⟩⟩
  | @enter t b player hidle hplayer =>
    have heq := hsame (t := t) (.enterGame b) (n := 0) (by rw [hidle]; rfl)
    exact ⟨heq.le, fun hc => ⟨hc, heq.ge⟩⟩
  | @disconnect t b called hidle hcalled =>
    have heq := hsame (t := t) (.disconnected b) (n := 0) (by rw [hidle]; rfl)
    exact ⟨heq.le, fun hc => ⟨hc, heq.ge⟩⟩
  | @create t b loginPkt player reply hhandler hlt howner =>
    have heq := hsame (t := t) (.login b { loginPkt with players := loginPkt.players ++ [reply] }) (n := 0)
      (by rw [hhandler]; rfl)
    exact ⟨heq.le, fun hc => ⟨hc, heq.ge⟩⟩
  | @reply t b loginPkt connected logins hhandler hall hgives =>
    have hok := h.threads t
    rw [hhandler] at hok
    have hle := hgives.le a
    have hge := hgives.ge a
    have hthread := hthread t .none
    simp only [hhandler, Handler.answering] at hthread
    rw [hok.1] at hle hge
    simp only [LoginView.answers, reduceCtorEq, if_false]
    by_cases hba : a = b
    · subst hba
      rw [if_pos rfl] at hle hge hthread
      rw [Bool.toNat_true] at hle hge
      exact ⟨by omega, fun hc => ⟨(hge hc).1, by have := (hge hc).2; omega⟩⟩
    · rw [if_neg hba] at hle hge
      rw [if_neg (Ne.symm hba)] at hthread
      exact ⟨by omega, fun hc => ⟨(hge hc).1, by have := (hge hc).2; omega⟩⟩
  | @entered t b connected logins hhandler hgives =>
    have hthread := hthread t .none
    have hle := hgives.le a
    have hge := hgives.ge a
    simp only [hhandler, Handler.answering] at hthread
    simp only [LoginView.answers, reduceCtorEq, if_false]
    exact ⟨by omega, fun hc => ⟨(hge hc).1, by have := (hge hc).2; omega⟩⟩
  | @gone t b hhandler =>
    have heq := hsame (t := t) .none (n := 0) (by rw [hhandler]; rfl)
    exact ⟨heq.le, fun hc => ⟨hc, heq.ge⟩⟩

omit [DecidableEq Sid] in
theorem loginPlayers_length : loginPlayers.length = 2 := rfl

/-- **A login makes two players.** -/
theorem LoginStep.made (hstep : LoginStep v asks v') : v'.made ≤ v.made + 2 * asks.logins := by
  have hthread := tally_update Handler.making v.handler
  cases hstep with
  | quiet hle => exact Nat.le_add_right _ _
  | chat hb => exact Nat.le_add_right _ _
  | @login t b hidle =>
    have := hthread t (.login b ⟨true, []⟩)
    simp only [hidle, Handler.making, List.length_nil, loginPlayers_length] at this
    simp only [LoginView.made, Request.logins]
    omega
  | @enter t b player hidle hplayer =>
    have := hthread t (.enterGame b)
    simp only [hidle, Handler.making] at this
    simp only [LoginView.made]
    omega
  | @disconnect t b called hidle hcalled =>
    have := hthread t (.disconnected b)
    simp only [hidle, Handler.making] at this
    simp only [LoginView.made]
    omega
  | @create t b loginPkt player reply hhandler hlt howner =>
    have := hthread t (.login b { loginPkt with players := loginPkt.players ++ [reply] })
    simp only [hhandler, Handler.making, List.length_append, List.length_singleton] at this
    simp only [LoginView.made, List.length_append, List.length_singleton]
    omega
  | @reply t b loginPkt connected logins hhandler hall hgives =>
    have := hthread t .none
    simp only [hhandler, Handler.making] at this
    simp only [LoginView.made]
    omega
  | @entered t b connected logins hhandler hgives =>
    have := hthread t .none
    simp only [hhandler, Handler.making] at this
    simp only [LoginView.made]
    omega
  | @gone t b hhandler =>
    have := hthread t .none
    simp only [hhandler, Handler.making] at this
    simp only [LoginView.made]
    omega

/-! ## One job for one request -/

/-- The jobs of a kind that have been handed to the room. -/
def LoginView.handed (v : LoginView Tid Sid) (p : RoomJob Sid → Bool) : Nat :=
  tally (fun called => called.countP (fun call => call.2.any p)) v.called

omit [DecidableEq Sid] in
theorem handed_push {v : LoginView Tid Sid} (t : Tid) (job : RoomJob Sid) (p : RoomJob Sid → Bool) :
    tally (fun called => called.countP (fun call => call.2.any p))
      (update v.called t (v.called t ++ [((), some job)])) = v.handed p + (p job).toNat := by
  have := tally_update (fun called : List (Unit × Option (RoomJob Sid)) => called.countP (fun call => call.2.any p))
    v.called t (v.called t ++ [((), some job)])
  rw [List.countP_append, List.countP_singleton] at this
  rw [LoginView.handed]
  cases hjob : p job <;>
    simp only [Option.any_some, hjob, if_true, Bool.false_eq_true, if_false, Bool.toNat_true, Bool.toNat_false]
      at this ⊢ <;> omega

/-- The job is the `Enter` of a player of the session. -/
def RoomJob.entersFor (a : Sid) : RoomJob Sid → Bool
  | .Enter player => decide (player.ownerSession = a)
  | _ => false

omit [DecidableEq Sid] in
def RoomJob.isBroadCast : RoomJob Sid → Bool
  | .BroadCast _ => true
  | _ => false

/-- **A session's players enter as often as it asks.** -/
theorem LoginStep.enters (hstep : LoginStep v asks v') (h : LoginInv v) (a : Sid) :
    v'.handed (RoomJob.entersFor a) = v.handed (RoomJob.entersFor a) + if asks = .enter a then 1 else 0 := by
  cases hstep with
  | quiet | login | create | reply | entered | gone => rfl
  | @chat t b msg hb => exact handed_push t (.BroadCast b) _
  | @enter t b player hidle hplayer =>
    refine (handed_push t (.Enter player) _).trans (congrArg (v.handed (RoomJob.entersFor a) + ·) ?_)
    simp only [RoomJob.entersFor, h.own b player hplayer, Request.enter.injEq]
    by_cases hba : b = a <;> simp [hba]
  | @disconnect t b called hidle hcalled =>
    rcases hcalled with rfl | ⟨player, -, rfl⟩
    · rfl
    · exact handed_push t (.Leave player) _

/-- **There are as many broadcasts as chats.** -/
theorem LoginStep.broadcasts (hstep : LoginStep v asks v') :
    v'.handed RoomJob.isBroadCast = v.handed RoomJob.isBroadCast + asks.chats := by
  cases hstep with
  | quiet | login | create | reply | entered | gone => rfl
  | @chat t b msg hb => exact handed_push t (.BroadCast b) _
  | @enter t b player hidle hplayer => exact handed_push t (.Enter player) _
  | @disconnect t b called hidle hcalled =>
    rcases hcalled with rfl | ⟨player, -, rfl⟩
    · rfl
    · exact handed_push t (.Leave player) _

/-! ## Runs -/

omit [DecidableEq Tid] [DecidableEq Sid] [Fintype Tid] in
theorem isLogin_of_isChat {b : SendBufferRef} (h : b.isChat = true) : b.isLogin = false := by
  unfold SendBufferRef.isChat at h
  unfold SendBufferRef.isLogin
  split at h
  · rename_i hpkt
    rw [hpkt]
  · cases h

/-- The buffer of a broadcast that has entered the room's queue was handed to it. -/
theorem ChatReach.called_of_job (hr : ChatReach s) {job : RoomJob Sid} (hjob : job ∈ s.roomJobs) :
    ∃ t, ((), some job) ∈ (s.jobs.threads t).called := by
  obtain ⟨⟨t, job'⟩, hentered, rfl⟩ := List.mem_filterMap.1 hjob
  have hby : some job ∈ (s.jobs.queues ()).enteredBy t :=
    List.mem_map.2 ⟨(t, some job), List.mem_filter.2 ⟨hentered, decide_eq_true rfl⟩, rfl⟩
  have hcall : some job ∈ (s.jobs.threads t).calls () := by
    rw [← hr.jobs.delivery.2.1 t ()]
    exact List.mem_append_left _ hby
  obtain ⟨⟨u, job''⟩, hcalled, heq⟩ := List.mem_map.1 hcall
  cases heq
  exact ⟨t, (List.mem_filter.1 hcalled).1⟩

theorem ChatReach.runs_job (hr : ChatReach s) {job : RoomJob Sid} (hrun : (s.jobs.threads t).runs job) :
    job ∈ s.roomJobs := by
  obtain ⟨r, hroom, -⟩ := hr.inv
  obtain rfl : r = some t := (hroom.inJob t).1 (inJob_of_runs hrun)
  obtain ⟨before, job', hexecuted, hrun', -⟩ := hroom.room
  obtain rfl := runs_unique hrun hrun'
  refine hr.executed_first.subset ?_
  have hex : (s.jobs.queues ()).executed = before ++ [job] := hexecuted
  rw [hex]
  exact List.mem_append_right _ (List.mem_singleton.2 rfl)

/-- A broadcast that runs is one of a chat, if those that were handed to the room are. -/
theorem ChatReach.runs_chat (hr : ChatReach s) (h : LoginInv s.view) {b : SendBufferRef}
    (hrun : (s.jobs.threads t).runs (.BroadCast b)) : b.isChat = true := by
  obtain ⟨u, hcalled⟩ := hr.called_of_job (hr.runs_job hrun)
  exact h.chats u b hcalled

theorem ChatReach.loginInv (hr : ChatReach s) : LoginInv s.view :=
  Reach.inv (P := fun s => LoginInv s.view) hr loginInv₀ (fun _ _ _ hr hi he _ =>
    (chatStep_login (fun _ _ hrun => isLogin_of_isChat (ChatReach.runs_chat hr hi hrun)) he).inv hi)

/-- **Every step of a run, as the logins see it.** -/
theorem ChatReach.loginStep (hr : ChatReach s) {act : ChatAct Tid Sid} (he : chatStep s act = some s') :
    LoginStep s.view act.asks s'.view :=
  chatStep_login (fun _ _ hrun => isLogin_of_isChat (hr.runs_chat hr.loginInv hrun)) he

end Geon
