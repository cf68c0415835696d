import GeonServer.DummyClientRun
/-!
# PlayLogin — the clients log in and enter the game

What the server has been asked on a session and what the client has heard there are the first of what the other side has
posted (`playStep_cases`).  A client enters when it hears that it has logged in, and the server says so when it has been
asked and has made the players (`PlayInv`): so a client asks to log in and then to enter, each once, and the player it
enters with is there (`login_protocol`).
-/
namespace Geon

open Lts Function

variable {Tid Cid Sid : Type} [DecidableEq Tid] [DecidableEq Cid] [DecidableEq Sid]

/-! ## Runs -/

/-- The packets of the session that have come to the server. -/
def PlayState.asked (s : PlayState Tid Cid Sid) (a : Sid) : List ClientPacket := (s.toServer a).take (s.taken a)

/-- The packets of the session that have come to the client. -/
def PlayState.heard (s : PlayState Tid Cid Sid) (a : Sid) : List SendBufferRef := (s.toClient a).take (s.received a)

variable [Fintype Tid]

/-- Fewer than 2³¹ jobs are pending on the room, and no `WSASend` of the server fails. -/
def PlayOk (s : PlayState Tid Cid Sid) (act : PlayAct Tid Cid Sid) (s' : PlayState Tid Cid Sid) : Prop :=
  JobsBounded s'.server.jobs ∧
    match act with
    | .server act => NoSendFails s.server act s'.server
    | _ => True

instance (s : PlayState Tid Cid Sid) (act : PlayAct Tid Cid Sid) (s' : PlayState Tid Cid Sid) :
    Decidable (PlayOk s act s') :=
  have : Decidable (JobsBounded s'.server.jobs) := inferInstanceAs (Decidable (∀ _, _))
  match act with
  | .server act => inferInstanceAs (Decidable (_ ∧ NoSendFails s.server act s'.server))
  | .client _ | .toServer _ _ | .toClient _ _ => inferInstanceAs (Decidable (_ ∧ True))

def PlayReach (s : PlayState Tid Cid Sid) : Prop := Reach playStep PlayOk playState₀ s

/-- What a packet asks for on its session. -/
def ClientPacket.request (a : Sid) : ClientPacket → Request Sid
  | .C_LOGIN _ => .login a
  | .C_ENTER_GAME _ => .enter a
  | .C_CHAT pkt => .chat pkt.msg

omit [DecidableEq Tid] [DecidableEq Sid] [Fintype Tid] in
theorem asks_handler (t : Tid) (a : Sid) (pkt : ClientPacket) :
    (ChatAct.handle t a pkt.handler).asks = pkt.request a := by
  cases pkt <;> rfl

variable {s s' : PlayState Tid Cid Sid} {act : PlayAct Tid Cid Sid}

/-- **What a step can do**, with the step of the side that makes it. -/
inductive PlayStep (s s' : PlayState Tid Cid Sid) : Prop
  | server {act : ChatAct Tid Sid} (hasks : act.asks.quiet = true) (he : chatStep s.server act = some s'.server)
      (hok : NoSendFails s.server act s'.server) (hclient : s'.client = s.client) (hasked : s'.asked = s.asked)
      (hheard : s'.heard = s.heard)
  | client (hstep : s'.client.view = s.client.view ∨ ClientStep s.client.view s'.client.view)
      (hserver : s'.server = s.server) (hasked : s'.asked = s.asked) (hheard : s'.heard = s.heard)
  | toServer {t : Tid} {a : Sid} {pkt : ClientPacket} (hpkt : pkt ∈ s.toServer a)
      (he : chatStep s.server (.handle t a pkt.handler) = some s'.server) (hclient : s'.client = s.client)
      (hasked : s'.asked = update s.asked a (s.asked a ++ [pkt])) (hheard : s'.heard = s.heard)
  | toClient {u : Cid} {a : Sid} {b : SendBufferRef} (hb : b ∈ s.toClient a)
      (he : s.client.onRecvPacket u a b.pkt.handler = some s'.client) (hserver : s'.server = s.server)
      (hasked : s'.asked = s.asked) (hheard : s'.heard = update s.heard a (s.heard a ++ [b]))

/-- No side has come further than what the other one has posted. -/
structure CursorsIn (s : PlayState Tid Cid Sid) : Prop where
  taken : ∀ a, s.taken a ≤ (s.toServer a).length
  received : ∀ a, s.received a ≤ (s.toClient a).length

omit [DecidableEq Tid] [DecidableEq Cid] [DecidableEq Sid] [Fintype Tid] in
theorem cursorsIn₀ : CursorsIn (playState₀ : PlayState Tid Cid Sid) := ⟨fun _ => Nat.zero_le _, fun _ => Nat.zero_le _⟩

theorem take_of_prefix {α : Type} {l l' : List α} (h : l <+: l') {n : Nat} (hn : n ≤ l.length) : l'.take n = l.take n := by
  obtain ⟨more, rfl⟩ := h
  exact List.take_append_of_le_length hn

/-- **One more packet** of one session. -/
theorem take_update {α : Type} (f : Sid → List α) (n : Sid → Nat) {a : Sid} {x : α} (hx : (f a)[n a]? = some x) :
    (fun b => (f b).take (update n a (n a + 1) b)) =
      update (fun b => (f b).take (n b)) a ((f a).take (n a) ++ [x]) := by
  funext b
  by_cases hb : b = a
  · subst hb
    rw [update_self, update_self, List.take_add_one, hx, Option.toList_some]
  · rw [update_of_ne hb, update_of_ne hb]

theorem update_succ_le {n l : Sid → Nat} (h : ∀ a, n a ≤ l a) {a : Sid} (hlt : n a < l a) (b : Sid) :
    update n a (n a + 1) b ≤ l b := by
  by_cases hb : b = a
  · rw [hb, update_self]
    exact hlt
  · rw [update_of_ne hb]
    exact h b

theorem flatten_prefix {α : Type} {l l' : List (List α)} (h : l <+: l') : l.flatten <+: l'.flatten := by
  obtain ⟨more, rfl⟩ := h
  rw [List.flatten_append]
  exact List.prefix_append _ _

omit [DecidableEq Cid] [Fintype Tid] in
/-- The server posts more. -/
theorem toClient_of_core {server : ChatState Tid Sid} (hstep : CoreStep s.server.core server.core) (a : Sid) :
    s.toClient a <+: (server.sessions a).send.posted.flatten := by
  rcases hstep.sends a with hsame | ⟨b, hb, -⟩
  · have hsame : (server.sessions a).send = (s.server.sessions a).send := hsame
    rw [hsame]
    exact List.prefix_rfl
  · exact flatten_prefix (sendStep_posted hb)

omit [DecidableEq Tid] [DecidableEq Sid] [Fintype Tid] in
/-- The client posts more. -/
theorem toServer_of_sends {client : DummyClient Cid Sid} {a : Sid}
    (h : client.view.sends a = s.client.view.sends a ∨
      ∃ b, sendStep (s.client.view.sends a) b = some (client.view.sends a)) :
    s.toServer a <+: (client.sessions a).send.posted.flatten := by
  rcases h with hsame | ⟨b, hb⟩
  · have hsame : (client.sessions a).send = (s.client.sessions a).send := hsame
    rw [hsame]
    exact List.prefix_rfl
  · exact flatten_prefix (sendStep_posted hb)

omit [DecidableEq Tid] [Fintype Tid] in
/-- The client's step for a packet, as its sessions see it. -/
theorem onRecvPacket_sends {c c' : DummyClient Cid Sid} {u : Cid} {a : Sid} {call : ServerPacketHandler.Call}
    (he : c.onRecvPacket u a call = some c') (b : Sid) :
    c'.view.sends b = c.view.sends b ∨ ∃ act, sendStep (c.view.sends b) act = some (c'.view.sends b) := by
  rcases onRecvPacket_cases he with ⟨-, -, hsame⟩ | ⟨pkt, send, -, -, hs, hview⟩ | ⟨pkt, -, hview⟩
  · exact .inl (by rw [hsame])
  · rw [hview]
    by_cases hb : b = a
    · subst hb
      simp only [update_self]
      exact .inr ⟨_, hs⟩
    · exact .inl (update_of_ne hb _ _)
  · exact .inl (by rw [hview])

omit [Fintype Tid] in
theorem playStep_server {act : ChatAct Tid Sid} (he : playStep s (.server act) = some s') :
    act.asks.quiet = true ∧ ∃ server, chatStep s.server act = some server ∧ s' = { s with server := server } := by
  cases act with
  | handle t a call => cases he
  | onDisconnected | pop | complete | disconnect | next =>
    simp only [playStep] at he
    obtain ⟨server, hs, rfl⟩ := Option.map_eq_some_iff.1 he
    exact ⟨rfl, server, hs, rfl⟩

/-- **Every step is one of these.** -/
theorem playStep_cases (hb : CursorsIn s) (he : playStep s act = some s') (hok : PlayOk s act s') :
    PlayStep s s' ∧ CursorsIn s' := by
  have hserver : ∀ {act : ChatAct Tid Sid} {server : ChatState Tid Sid}, chatStep s.server act = some server →
      NoSendFails s.server act server → ∀ a, s.toClient a <+: (server.sessions a).send.posted.flatten :=
    fun hs hok => toClient_of_core (chatStep_core hs hok)
  have htake : ∀ {α : Type} {f g : Sid → List α} {n : Sid → Nat}, (∀ a, f a <+: g a) → (∀ a, n a ≤ (f a).length) →
      (fun a => (g a).take (n a)) = fun a => (f a).take (n a) := fun h hn => funext fun a => take_of_prefix (h a) (hn a)
  cases act with
  | server act =>
    obtain ⟨hasks, server, hs, rfl⟩ := playStep_server he
    have hmore := hserver hs hok.2
    exact ⟨.server hasks hs hok.2 rfl rfl (htake hmore hb.received),
      hb.taken, fun a => (hb.received a).trans (hmore a).length_le⟩
  | client act =>
    obtain ⟨client, hs, rfl⟩ := Option.map_eq_some_iff.1 he
    have hmore : ∀ a, s.toServer a <+: (client.sessions a).send.posted.flatten := fun a => by
      rcases clientStep_cases hs with hsame | hstep
      · exact toServer_of_sends (.inl (by rw [hsame]))
      · exact toServer_of_sends (hstep.sends a)
    exact ⟨.client (clientStep_cases hs) rfl (htake hmore hb.taken) rfl,
      fun a => (hb.taken a).trans (hmore a).length_le, hb.received⟩
  | toServer t a =>
    simp only [playStep] at he
    split at he
    · cases he
    · rename_i pkt hpkt
      obtain ⟨server, hs, rfl⟩ := Option.map_eq_some_iff.1 he
      have hmore := hserver hs trivial
      obtain ⟨hlt, -⟩ := List.getElem?_eq_some_iff.1 hpkt
      exact ⟨.toServer (List.mem_of_getElem? hpkt) hs rfl (take_update s.toServer s.taken hpkt)
        (htake hmore hb.received), update_succ_le hb.taken hlt, fun b => (hb.received b).trans (hmore b).length_le⟩
  | toClient u a =>
    simp only [playStep] at he
    split at he
    · cases he
    · rename_i b hpkt
      obtain ⟨client, hs, rfl⟩ := Option.map_eq_some_iff.1 he
      have hmore : ∀ a, s.toServer a <+: (client.sessions a).send.posted.flatten := fun a =>
        toServer_of_sends (onRecvPacket_sends hs a)
      obtain ⟨hlt, -⟩ := List.getElem?_eq_some_iff.1 hpkt
      exact ⟨.toClient (List.mem_of_getElem? hpkt) hs rfl (htake hmore hb.taken)
        (take_update s.toClient s.received hpkt), fun b => (hb.taken b).trans (hmore b).length_le,
        update_succ_le hb.received hlt⟩

/-! ## The runs of the two sides -/

theorem PlayReach.cursorsIn (h : PlayReach s) : CursorsIn s :=
  Reach.inv (P := CursorsIn) h cursorsIn₀ (fun _ _ _ _ hb he hok => (playStep_cases hb he hok).2)

theorem PlayReach.server (h : PlayReach s) : ChatReach s.server := by
  refine Reach.map chatStep (fun s : PlayState Tid Cid Sid => s.server) (fun s act s' he hok => ?_) h
  cases act with
  | server act =>
    obtain ⟨-, server, hs, rfl⟩ := playStep_server he
    exact .inr ⟨act, hs, hok⟩
  | client act =>
    obtain ⟨client, -, rfl⟩ := Option.map_eq_some_iff.1 he
    exact .inl rfl
  | toServer t a =>
    simp only [playStep] at he
    split at he
    · cases he
    · obtain ⟨server, hs, rfl⟩ := Option.map_eq_some_iff.1 he
      exact .inr ⟨_, hs, hok.1, trivial⟩
  | toClient u a =>
    simp only [playStep] at he
    split at he
    · cases he
    · obtain ⟨client, -, rfl⟩ := Option.map_eq_some_iff.1 he
      exact .inl rfl

omit [Fintype Tid] in
/-- The sending side of a client's session in any step. -/
theorem PlayStep.sends (hstep : PlayStep s s') (a : Sid) : s'.client.view.sends a = s.client.view.sends a ∨
    ∃ act, sendStep (s.client.view.sends a) act = some (s'.client.view.sends a) := by
  cases hstep with
  | server _ _ _ hclient => exact .inl (by rw [hclient])
  | client hstep =>
    rcases hstep with hsame | hstep
    · exact .inl (by rw [hsame])
    · exact hstep.sends a
  | toServer _ _ hclient => exact .inl (by rw [hclient])
  | toClient _ he => exact onRecvPacket_sends he a

theorem PlayReach.client (h : PlayReach s) (a : Sid) : Reach sendStep Any sendState₀ (s.client.view.sends a) :=
  Reach.inv (P := fun s => Reach sendStep Any sendState₀ (s.client.view.sends a)) h .start
    (fun _ _ _ hr hP he hok => by
      rcases (playStep_cases (PlayReach.cursorsIn hr) he hok).1.sends a with hsame | ⟨act, hact⟩
      · rwa [hsame]
      · exact hP.next hact trivial)

/-! ## What the server does for what it is asked -/

/-- It answers a `C_LOGIN` at most once, and once while the session is connected; it hands the room an `Enter` for each
`C_ENTER_GAME`, and what the clients say. -/
structure Served (v : LoginView Tid Sid) (asked : Sid → List ClientPacket) : Prop where
  answers : ∀ a, v.answers a ≤ (asked a).countP ClientPacket.isLogin
  answered : ∀ a, v.connected a = true → (asked a).countP ClientPacket.isLogin ≤ v.answers a
  enters : ∀ a, v.handed (RoomJob.entersFor a) = (asked a).countP ClientPacket.isEnter
  chats : ∀ t b, ((), some (.BroadCast b)) ∈ v.called t → b.pkt = .S_CHAT ⟨0, helloPkt.msg⟩

section
variable {v v' : LoginView Tid Sid} {asked : Sid → List ClientPacket}

omit [DecidableEq Tid] in
theorem served₀ : Served (chatState₀ : ChatState Tid Sid).view (fun _ => []) where
  answers a := by
    have h0 : (chatState₀ : ChatState Tid Sid).view.logins a = 0 := given₀ SendBufferRef.isLogin
    rw [LoginView.answers, h0, Nat.zero_add]
    exact (tally_const_zero (ι := Tid) (Handler.answering a) .none rfl).le
  answered _ _ := Nat.zero_le _
  enters a := tally_const_zero (ι := Tid) _ [] rfl
  chats t b h := by cases h

/-- Nothing is asked. -/
theorem Served.quiet (h : Served v asked) (hI : LoginInv v) {asks : Request Sid} (hquiet : asks.quiet = true)
    (hstep : LoginStep v asks v') : Served v' asked := by
  have hlogin : ∀ a, asks ≠ .login a := fun a heq => by
    rw [heq] at hquiet
    cases hquiet
  have henter : ∀ a, asks ≠ .enter a := fun a heq => by
    rw [heq] at hquiet
    cases hquiet
  refine ⟨fun a => ?_, fun a hc => ?_, fun a => ?_, fun t b hcall => ?_⟩
  · have hle := (hstep.answers hI a).1
    rw [if_neg (hlogin a)] at hle
    exact hle.trans (h.answers a)
  · obtain ⟨hold, hle⟩ := (hstep.answers hI a).2 hc
    rw [if_neg (hlogin a)] at hle
    exact (h.answered a hold).trans hle
  · rw [hstep.enters hI a, if_neg (henter a), h.enters a, Nat.add_zero]
  · rcases hstep.hands hcall with hold | ⟨b', msg, -, hmsg, -⟩ | ⟨player, heq⟩ | ⟨player, a, heq, -⟩
    · exact h.chats t b hold
    · rw [hmsg] at hquiet
      cases hquiet
    · cases heq
    · cases heq

omit [DecidableEq Tid] [Fintype Tid] in
theorem countP_asked (asked : Sid → List ClientPacket) {a b : Sid} {pkt : ClientPacket} {p : ClientPacket → Bool}
    {r : Request Sid} (hr : pkt.request a = r ↔ a = b ∧ p pkt = true) :
    (update asked a (asked a ++ [pkt]) b).countP p = (asked b).countP p + if pkt.request a = r then 1 else 0 := by
  by_cases hab : a = b
  · subst hab
    rw [update_self, List.countP_append, List.countP_singleton]
    by_cases hp : p pkt = true
    · rw [if_pos hp, if_pos (hr.2 ⟨rfl, hp⟩)]
    · rw [if_neg hp, if_neg (fun hreq => hp (hr.1 hreq).2)]
  · rw [update_of_ne (Ne.symm hab), if_neg (fun hreq => hab (hr.1 hreq).1), Nat.add_zero]

omit [DecidableEq Sid] in
theorem request_login {a b : Sid} {pkt : ClientPacket} :
    pkt.request a = .login b ↔ a = b ∧ pkt.isLogin = true := by
  cases pkt <;> simp [ClientPacket.request, ClientPacket.isLogin]

omit [DecidableEq Sid] in
theorem request_enter {a b : Sid} {pkt : ClientPacket} :
    pkt.request a = .enter b ↔ a = b ∧ pkt.isEnter = true := by
  cases pkt <;> simp [ClientPacket.request, ClientPacket.isEnter]

/-- **A packet of a client.** -/
theorem Served.ask (h : Served v asked) (hI : LoginInv v) {a : Sid} {pkt : ClientPacket}
    (hpkt : pkt.isForeign = false) (hstep : LoginStep v (pkt.request a) v') :
    Served v' (update asked a (asked a ++ [pkt])) where
  answers b := by
    rw [countP_asked asked request_login]
    exact (hstep.answers hI b).1.trans (Nat.add_le_add_right (h.answers b) _)
  answered b hc := by
    obtain ⟨hold, hle⟩ := (hstep.answers hI b).2 hc
    rw [countP_asked asked request_login]
    exact (Nat.add_le_add_right (h.answered b hold) _).trans hle
  enters b := by rw [countP_asked asked request_enter, hstep.enters hI b, h.enters b]
  chats t b hcall := by
    rcases hstep.hands hcall with hold | ⟨b', msg, heq, hmsg, hb⟩ | ⟨player, heq⟩ | ⟨player, a, heq, -⟩
    · exact h.chats t b hold
    · cases heq
      cases pkt with
      | C_CHAT pkt =>
        cases hmsg
        have hhello : pkt = helloPkt := by simpa [ClientPacket.isForeign] using hpkt
        rw [hb, hhello]
      | _ => cases hmsg
    · cases heq
    · cases heq

end

/-! ## What the client does for what it hears -/

variable [Fintype Cid]

/-- It says `C_LOGIN` once and `C_ENTER_GAME` at most once for each `S_LOGIN`, and exactly so while the session is
connected, in this order and nothing else but its chats. -/
structure Told (v : ClientView Cid Sid) (heard : Sid → List SendBufferRef) : Prop where
  logins : ∀ a, v.logins a ≤ 1
  greeted : ∀ a, (v.sends a).connected = true → 1 ≤ v.logins a
  enters : ∀ a, (v.sends a).given ClientPacket.isEnter ≤ (heard a).countP SendBufferRef.isLogin
  entered : ∀ a, (v.sends a).connected = true →
    (heard a).countP SendBufferRef.isLogin ≤ (v.sends a).given ClientPacket.isEnter
  foreign : ∀ a, (v.sends a).given ClientPacket.isForeign = 0
  turn : ∀ a, LoginFirst (v.sends a)

section
variable {v v' : ClientView Cid Sid} {heard : Sid → List SendBufferRef}

omit [DecidableEq Sid] [DecidableEq Cid] [Fintype Cid] in
theorem isForeign_hello : (ClientPacket.C_CHAT helloPkt).isForeign = false := by simp [ClientPacket.isForeign]

omit [DecidableEq Cid] in
theorem logins₀ (a : Sid) : (dummyClient₀ : DummyClient Cid Sid).view.logins a = 1 := by
  have h0 : ((dummyClient₀ : DummyClient Cid Sid).view.sends a).given ClientPacket.isLogin = 0 := given₀ _
  rw [ClientView.logins, h0, Nat.zero_add]
  exact congrArg (· + 1) (tally_const_zero (ι := Cid) (ClientPc.greets a) .idle rfl)

omit [DecidableEq Cid] in
theorem told₀ : Told (dummyClient₀ : DummyClient Cid Sid).view (fun _ => []) where
  logins a := (logins₀ a).le
  greeted a _ := (logins₀ a).ge
  enters _ := (given₀ _).le
  entered _ _ := Nat.zero_le _
  foreign _ := given₀ _
  turn _ := loginFirst₀

omit [DecidableEq Cid] in
theorem Told.bounded (h : Told v heard) {a : Sid} (henters : (v.sends a).given ClientPacket.isEnter ≤ 1) :
    SaysOnce (v.sends a) :=
  ⟨(Nat.le_add_right _ _).trans ((Nat.le_add_right _ _).trans (h.logins a)), henters, h.foreign a⟩

omit [DecidableEq Cid] in
/-- A step in the sending code of one session keeps the order on all of them. -/
theorem Told.turn_update (h : Told v heard) {b : Sid} {send : SendState Cid ClientPacket} (hsend : LoginFirst send)
    (a : Sid) : LoginFirst (update v.sends b send a) := by
  by_cases hab : a = b
  · subst hab
    rwa [update_self]
  · rw [update_of_ne hab]
    exact h.turn a

/-- **A step of the client's own.** -/
theorem Told.client (h : Told v heard) (hb : ∀ a, SaysOnce (v.sends a)) (hstep : ClientStep v v') : Told v' heard where
  logins a := (hstep.logins a).1.trans (h.logins a)
  greeted a hc := by
    obtain ⟨hold, hle⟩ := (hstep.logins a).2 hc
    exact (h.greeted a hold).trans hle
  enters a := (hstep.passes rfl rfl a).le.trans (h.enters a)
  entered a hc := by
    obtain ⟨hold, hle⟩ := (hstep.passes (p := ClientPacket.isEnter) rfl rfl a).ge hc
    exact (h.entered a hold).trans hle
  foreign a := Nat.eq_zero_of_le_zero ((hstep.passes (by decide) isForeign_hello a).le.trans (h.foreign a).le)
  turn a := by
    cases hstep with
    | @inner b act send hact he => exact h.turn_update ((h.turn b).inner (hb b) hact he) a
    | connect | move => exact h.turn a
    | @greet u b send hpc he => exact h.turn_update ((h.turn b).send he (fun hpkt => by cases hpkt)) a
    | @chat u b rest send hpc he => exact h.turn_update ((h.turn b).send he (fun hpkt => by cases hpkt)) a

omit [DecidableEq Cid] [Fintype Cid] [DecidableEq Sid] in
theorem handler_login {b : SendBufferRef} {pkt : Protocol.S_LOGIN} (h : b.pkt.handler = .Handle_S_LOGIN pkt) :
    b.isLogin = pkt.success := by
  rw [SendBufferRef.isLogin]
  cases hpkt : b.pkt <;> rw [hpkt] at h <;> cases h
  rfl

omit [DecidableEq Cid] [Fintype Cid] in
theorem countP_heard (heard : Sid → List SendBufferRef) (a x : Sid) (b : SendBufferRef) (p : SendBufferRef → Bool) :
    (update heard a (heard a ++ [b]) x).countP p = (heard x).countP p + if a = x then (p b).toNat else 0 := by
  by_cases hx : a = x
  · subst hx
    rw [update_self, if_pos rfl, List.countP_append, List.countP_singleton]
    cases p b <;> rfl
  · rw [update_of_ne (Ne.symm hx), if_neg hx, Nat.add_zero]

omit [DecidableEq Cid] in
/-- A packet that the client does nothing for. -/
theorem Told.deaf (h : Told v heard) (a : Sid) {b : SendBufferRef} (hb : b.isLogin = false) :
    Told v (update heard a (heard a ++ [b])) := by
  have hcount : ∀ x, (update heard a (heard a ++ [b]) x).countP SendBufferRef.isLogin =
      (heard x).countP SendBufferRef.isLogin := fun x => by
    rw [countP_heard, hb, Bool.toNat_false, ite_self, Nat.add_zero]
  exact { h with
    enters := fun x => (hcount x).symm ▸ h.enters x
    entered := fun x hc => (hcount x).symm ▸ h.entered x hc }

/-- **A packet of the server**, which answers a `C_LOGIN`. -/
theorem Told.recv {c c' : DummyClient Cid Sid} (h : Told c.view heard) {u : Cid} {a : Sid} {b : SendBufferRef}
    (hfirst : b.isLogin = true → .C_LOGIN ⟨⟩ ∈ (c.view.sends a).pushed)
    (he : c.onRecvPacket u a b.pkt.handler = some c') : Told c'.view (update heard a (heard a ++ [b])) := by
  rcases onRecvPacket_cases he with ⟨hfail, -, hsame⟩ | ⟨pkt, send, hcall, hsuccess, hs, hview⟩ | ⟨pkt, hcall, hview⟩
  · rw [hsame]
    refine h.deaf a ?_
    rw [SendBufferRef.isLogin]
    cases hpkt : b.pkt with
    | S_LOGIN pkt => exact hfail pkt (by rw [hpkt]; rfl)
    | _ => rfl
  · have hlogin : b.isLogin = true := (handler_login hcall).trans hsuccess
    have hpasses : ∀ {p : ClientPacket → Bool} {n : Nat}, (p (.C_ENTER_GAME ⟨0⟩)).toNat = n → ∀ x,
        Passes p (c.view.sends x) (update c.view.sends a send x) (if a = x then n else 0) :=
      fun hn x => passes_update (hn ▸ passes_send _ hs) x
    have hnone : ∀ {p : ClientPacket → Bool}, (p (.C_ENTER_GAME ⟨0⟩)).toNat = 0 → ∀ x,
        Passes p (c.view.sends x) (update c.view.sends a send x) 0 := fun hn x => by
      have := hpasses hn x
      rwa [ite_self] at this
    rw [hview]
    refine ⟨fun x => ?_, fun x hc => ?_, fun x => ?_, fun x hc => ?_, fun x => ?_, fun x => ?_⟩
    · exact (Nat.add_le_add_right (Nat.add_le_add_right (hnone rfl x).le _) _).trans (h.logins x)
    · obtain ⟨hold, hle⟩ := (hnone (p := ClientPacket.isLogin) rfl x).ge hc
      exact (h.greeted x hold).trans (Nat.add_le_add_right (Nat.add_le_add_right hle _) _)
    · rw [countP_heard, hlogin]
      exact (hpasses (p := ClientPacket.isEnter) rfl x).le.trans (Nat.add_le_add_right (h.enters x) _)
    · obtain ⟨hold, hle⟩ := (hpasses (p := ClientPacket.isEnter) rfl x).ge hc
      rw [countP_heard, hlogin]
      exact (Nat.add_le_add_right (h.entered x hold) _).trans hle
    · exact Nat.eq_zero_of_le_zero ((hnone (by decide) x).le.trans (h.foreign x).le)
    · exact h.turn_update ((h.turn a).send hs (fun _ => hfirst hlogin)) x
  · have hnot : b.isLogin = false := by
      rw [SendBufferRef.isLogin]
      cases hpkt : b.pkt with
      | S_LOGIN pkt =>
        rw [hpkt] at hcall
        cases hcall
      | _ => rfl
    have := h.deaf a hnot
    rw [hview]
    exact { this with }

end

/-! ## Both together -/

structure PlayInv (s : PlayState Tid Cid Sid) : Prop where
  served : Served s.server.view s.asked
  told : Told s.client.view s.heard

omit [DecidableEq Tid] [DecidableEq Cid] in
theorem playInv₀ : PlayInv (playState₀ : PlayState Tid Cid Sid) := ⟨served₀, told₀⟩

omit [Fintype Tid] [Fintype Cid] [DecidableEq Cid] in
theorem countP_posted {ι Buf : Type} [DecidableEq ι] {send : SendState ι Buf} (h : Reach sendStep Any sendState₀ send)
    (p : Buf → Bool) (n : Nat) : (send.posted.flatten.take n).countP p ≤ send.pushed.countP p :=
  ((List.take_sublist n _).trans (posted_sublist h)).countP_le

/-- **Who hears that it has logged in has said so before.** -/
theorem PlayInv.said (h : PlayInv s) (hr : PlayReach s) (a : Sid) :
    (s.toClient a).countP SendBufferRef.isLogin ≤ (s.client.view.sends a).pushed.countP ClientPacket.isLogin := by
  have hsend : Reach sendStep Any sendState₀ (s.server.sessions a).send := (hr.server.sends a).mono (fun _ _ _ _ => trivial)
  calc (s.toClient a).countP SendBufferRef.isLogin
      ≤ (s.server.sessions a).send.pushed.countP SendBufferRef.isLogin := (posted_sublist hsend).countP_le
    _ ≤ s.server.view.logins a := Nat.le_add_right _ _
    _ ≤ s.server.view.answers a := Nat.le_add_right _ _
    _ ≤ (s.asked a).countP ClientPacket.isLogin := h.served.answers a
    _ ≤ (s.client.view.sends a).pushed.countP ClientPacket.isLogin := countP_posted (hr.client a) _ _

omit [DecidableEq Tid] [DecidableEq Cid] in
theorem PlayInv.login_once (h : PlayInv s) (a : Sid) :
    (s.client.view.sends a).pushed.countP ClientPacket.isLogin ≤ 1 :=
  (Nat.le_add_right _ _).trans ((Nat.le_add_right _ _).trans ((Nat.le_add_right _ _).trans (h.told.logins a)))

theorem PlayInv.bounded (h : PlayInv s) (hr : PlayReach s) (a : Sid) : SaysOnce (s.client.view.sends a) :=
  h.told.bounded (((h.told.enters a).trans (List.take_sublist _ _).countP_le).trans
    ((h.said hr a).trans (h.login_once a)))

/-- The only `C_LOGIN` there is. -/
theorem mem_of_countP_login {l : List ClientPacket} (h : 0 < l.countP ClientPacket.isLogin) : .C_LOGIN ⟨⟩ ∈ l := by
  obtain ⟨pkt, hmem, hpkt⟩ := List.countP_pos_iff.1 h
  cases pkt with
  | C_LOGIN pkt => exact hmem
  | _ => cases hpkt

/-- **The step lemma.** -/
theorem PlayStep.inv (hstep : PlayStep s s') (hr : PlayReach s) (h : PlayInv s) : PlayInv s' := by
  have hI := hr.server.loginInv
  cases hstep with
  | server hasks he hok hclient hasked hheard =>
    have hlogin := hr.server.loginStep he
    exact ⟨hasked ▸ h.served.quiet hI hasks hlogin, by rw [hclient, hheard]; exact h.told⟩
  | client hstep hserver hasked hheard =>
    refine ⟨by rw [hserver, hasked]; exact h.served, ?_⟩
    rw [hheard]
    rcases hstep with hsame | hstep
    · rw [hsame]
      exact h.told
    · exact h.told.client (h.bounded hr) hstep
  | @toServer t a pkt hpkt he hclient hasked hheard =>
    have hlogin := hr.server.loginStep he
    rw [asks_handler] at hlogin
    have hpushed : pkt ∈ (s.client.view.sends a).pushed := (posted_sublist (hr.client a)).subset hpkt
    have hforeign : pkt.isForeign = false := by
      by_contra hnot
      have hpos := List.countP_pos_iff.2 ⟨pkt, hpushed, by simpa using hnot⟩
      have hzero := (Nat.le_add_right _ _).trans (h.told.foreign a).le
      omega
    exact ⟨hasked ▸ h.served.ask hI hforeign hlogin, by rw [hclient, hheard]; exact h.told⟩
  | @toClient u a b hb he hserver hasked hheard =>
    refine ⟨by rw [hserver, hasked]; exact h.served, hheard ▸ h.told.recv (fun hlogin => ?_) he⟩
    exact mem_of_countP_login (lt_of_lt_of_le (List.countP_pos_iff.2 ⟨b, hb, hlogin⟩) (h.said hr a))

theorem PlayReach.inv (h : PlayReach s) : PlayInv s :=
  Reach.inv (P := PlayInv) h playInv₀ (fun _ _ _ hr hP he hok =>
    (playStep_cases (PlayReach.cursorsIn hr) he hok).1.inv hr hP)

/-! ## The server and a client's next packet -/

omit [DecidableEq Cid] [DecidableEq Sid] [Fintype Tid] in
theorem jobStep_push_isSome {jobs : JobState Tid Unit (RoomJob Sid)} {t : Tid} (hframes : (jobs.threads t).frames = [])
    (job : RoomJob Sid) : (jobStep jobs (.push t () (some job) false)).isSome = true := by
  have hfree : (jobs.threads t).free = true := by rw [JobThread.free, hframes]
  simp only [jobStep, if_pos hfree, Option.isSome_some]

/-- The player the client asks for is there. -/
theorem PlayReach.player (h : PlayReach s) {a : Sid} {pkt : Protocol.C_ENTER_GAME}
    (hpkt : .C_ENTER_GAME pkt ∈ s.toServer a) (hgone : (s.server.sessions a).disconnected = false) :
    ∃ player, (s.server.sessions a).players[pkt.playerIndex.toNat]? = some player ∧ player.ownerSession = a := by
  have hI := h.inv
  have hpushed : .C_ENTER_GAME pkt ∈ (s.client.view.sends a).pushed := (posted_sublist (h.client a)).subset hpkt
  have hzero : pkt = ⟨0⟩ := by
    have hmem : .C_ENTER_GAME pkt ∈ (s.client.view.sends a).pushed.filter (fun pkt => !pkt.isChat) :=
      List.mem_filter.2 ⟨hpushed, rfl⟩
    simpa using (hI.told.turn a).order.subset hmem
  -- it has heard that it has logged in
  have hheard : 0 < (s.heard a).countP SendBufferRef.isLogin :=
    lt_of_lt_of_le (List.countP_pos_iff.2 ⟨_, hpushed, rfl⟩) ((Nat.le_add_right _ _).trans (hI.told.enters a))
  have hsend : Reach sendStep Any sendState₀ (s.server.sessions a).send := (h.server.sends a).mono (fun _ _ _ _ => trivial)
  have hlogins : 0 < s.server.view.logins a :=
    lt_of_lt_of_le hheard ((countP_posted hsend _ _).trans (Nat.le_add_right _ _))
  have hlogin := h.server.loginInv
  have hlength : loginPlayers.length ≤ (s.server.sessions a).players.length :=
    (hlogin.reply a hlogins).resolve_left (fun hdisc => by
      have hdisc : (s.server.sessions a).disconnected = true := hdisc
      rw [hgone] at hdisc
      cases hdisc)
  rw [loginPlayers_length] at hlength
  have hlt : pkt.playerIndex.toNat < (s.server.sessions a).players.length := by
    rw [hzero]
    exact lt_of_lt_of_le (by decide) hlength
  exact ⟨_, List.getElem?_eq_getElem hlt, hlogin.own a _ (List.getElem_mem hlt)⟩

/-- **The login protocol**, in every run of the server and its clients in which fewer than 2³¹ jobs are pending and no
`WSASend` of the server fails.  A client's session says `C_LOGIN` once and then `C_ENTER_GAME` once, for its first
character, besides its chats; it is told once that it has logged in; and until `OnDisconnected` has been there the
server has a handler step for every packet that comes: the character asked for is one of the session's. -/
theorem login_protocol (h : PlayReach s) (a : Sid) :
    (s.client.sessions a).send.pushed.filter (fun pkt => !pkt.isChat) <+: [.C_LOGIN ⟨⟩, .C_ENTER_GAME ⟨0⟩] ∧
    (s.toClient a).countP SendBufferRef.isLogin ≤ 1 ∧
    ((s.server.sessions a).disconnected = false → s.taken a < (s.toServer a).length →
      ∀ t, s.server.atBase t = true → (playStep s (.toServer t a)).isSome = true) := by
  refine ⟨(h.inv.told.turn a).order, (h.inv.said h a).trans (h.inv.login_once a), fun hgone hlt t hbase => ?_⟩
  obtain ⟨-, -, hframes⟩ := atBase_iff.1 hbase
  simp only [playStep, List.getElem?_eq_getElem hlt, Option.isSome_map, chatStep, if_pos hbase]
  cases hpkt : (s.toServer a)[s.taken a] with
  | C_LOGIN pkt => rfl
  | C_ENTER_GAME pkt =>
    obtain ⟨player, hplayer, -⟩ := h.player (hpkt ▸ List.getElem_mem hlt) hgone
    simp only [ClientPacket.handler, ChatState.handle, hplayer, ChatState.doAsync, Option.isSome_map]
    exact jobStep_push_isSome hframes _
  | C_CHAT pkt =>
    simp only [ClientPacket.handler, ChatState.handle, ChatState.doAsync, Option.isSome_map]
    exact jobStep_push_isSome hframes _

/-- A thread of the client takes `n` steps. -/
def clientNexts (u : Two) (n : Nat) : List (PlayAct Two Two Two) := List.replicate n (.client (.next u .success))

/-- A thread of the server takes `n` steps. -/
def serverNexts (t : Two) (n : Nat) : List (PlayAct Two Two Two) := List.replicate n (.server (.next t false .success))

/-- A broadcast comes before the `C_LOGIN` of the session it goes to; the session logs in and asks to enter, while thread
one of the server is still with the chat. -/
def chatFirst : List (PlayAct Two Two Two) :=
  .client (.connect .one .one) :: clientNexts .one 1 ++ .client (.broadcast .two [.one]) :: clientNexts .two 6 ++
  clientNexts .one 3 ++ .client (.complete .two .one 0 1) :: clientNexts .two 8 ++
  .toServer .one .one :: .toServer .two .one :: serverNexts .two 7 ++ .toClient .two .one :: clientNexts .two 1 ++
  .client (.complete .one .one 0 1) :: clientNexts .one 8

theorem login_protocol_chat_first : ∃ s, run playStep PlayOk (playState₀ : PlayState Two Two Two) chatFirst = some s ∧
    s.taken .one = 2 ∧ (s.toServer .one).map ClientPacket.isEnter = [false, false, true] ∧
    (playStep s (.toServer .two .one)).isSome = true := by
  obtain ⟨s, hrun, hr⟩ := reach_of_run playStep PlayOk (playState₀ : PlayState Two Two Two) chatFirst (by decide +kernel)
  have hs : (run playStep PlayOk (playState₀ : PlayState Two Two Two) chatFirst).map (fun s =>
      (s.taken .one, (s.toServer .one).map ClientPacket.isEnter, (s.server.sessions .one).disconnected,
        s.server.atBase .two)) = some (2, [false, false, true], false, true) := by decide +kernel
  simp only [hrun, Option.map_some, Option.some.injEq, Prod.mk.injEq] at hs
  obtain ⟨htaken, hsent, hgone, hbase⟩ := hs
  have hlength : (s.toServer .one).length = 3 := by
    rw [← List.length_map (f := ClientPacket.isEnter), hsent]
    rfl
  exact ⟨s, hrun, htaken, hsent, (login_protocol hr .one).2.2 hgone (by omega) .two hbase⟩

end Geon
