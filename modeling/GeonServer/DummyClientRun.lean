import GeonServer.ChatLogin
import GeonServer.DummyClient
import GeonServer.Link
/-!
# DummyClientRun — what the clients say, and what they are told

A session of the clients sends one `C_LOGIN`, and one `C_ENTER_GAME` when it has been answered
(`ClientStep.logins`, `enters_of_recv`).  The server answers it no more often than it has asked, so what it says besides its chats is
`C_LOGIN` and then `C_ENTER_GAME` (`login_protocol`).
-/
namespace Geon

open Lts Function

def ClientPacket.isLogin : ClientPacket → Bool
  | .C_LOGIN _ => true
  | _ => false

def ClientPacket.isEnter : ClientPacket → Bool
  | .C_ENTER_GAME _ => true
  | _ => false

def ClientPacket.isChat : ClientPacket → Bool
  | .C_CHAT _ => true
  | _ => false

/-- The packet is none of those the clients send. -/
def ClientPacket.isForeign (pkt : ClientPacket) : Bool :=
  decide (pkt ∉ [.C_LOGIN ⟨⟩, .C_ENTER_GAME ⟨0⟩, .C_CHAT helloPkt])

/-! ## A step of the client -/

variable {Cid Sid : Type}

structure ClientView (Cid Sid : Type) where
  sends : Sid → SendState Cid ClientPacket
  begun : Sid → Bool
  pc : Cid → ClientPc Sid
  printed : List (List BYTE)

def DummyClient.view (c : DummyClient Cid Sid) : ClientView Cid Sid where
  sends a := (c.sessions a).send
  begun a := (c.sessions a).begun
  pc u := (c.threads u).pc
  printed := c.printed

/-- The thread is in the `ProcessConnect` of the session, before its `C_LOGIN`. -/
def ClientPc.greets [DecidableEq Sid] (a : Sid) (pc : ClientPc Sid) : Nat :=
  if pc = .addSession a ∨ pc = .onConnected a then 1 else 0

variable [DecidableEq Cid] [DecidableEq Sid]

/-- **What a step of the client can do.** -/
inductive ClientStep (v : ClientView Cid Sid) : ClientView Cid Sid → Prop
  /-- A thread goes on in `Send` or `ProcessSend`, or a session is disconnected. -/
  | inner {a : Sid} {act : SendAct Cid ClientPacket} {send : SendState Cid ClientPacket}
      (hact : ∀ u pkt, act ≠ .send u pkt) (he : sendStep (v.sends a) act = some send) :
      ClientStep v { v with sends := update v.sends a send }
  | connect {u : Cid} {a : Sid} (hpc : v.pc u = .idle) (hbegun : v.begun a = false) :
      ClientStep v { v with begun := update v.begun a true, pc := update v.pc u (.addSession a) }
  /-- A thread goes on, as far from a `C_LOGIN` as before. -/
  | move {u : Cid} {pc : ClientPc Sid} (hgreets : ∀ a, pc.greets a = (v.pc u).greets a) :
      ClientStep v { v with pc := update v.pc u pc }
  /-- `OnConnected`. -/
  | greet {u : Cid} {a : Sid} {send : SendState Cid ClientPacket} (hpc : v.pc u = .onConnected a)
      (he : sendStep (v.sends a) (.send u (.C_LOGIN ⟨⟩)) = some send) :
      ClientStep v { v with sends := update v.sends a send, pc := update v.pc u (.registerRecv a) }
  | chat {u : Cid} {a : Sid} {rest : List Sid} {send : SendState Cid ClientPacket}
      (hpc : v.pc u = .broadcast (a :: rest)) (he : sendStep (v.sends a) (.send u (.C_CHAT helloPkt)) = some send) :
      ClientStep v { v with sends := update v.sends a send, pc := update v.pc u (.broadcast rest) }

section
variable {c c' : DummyClient Cid Sid} {u : Cid} {a : Sid}

omit [DecidableEq Cid] [DecidableEq Sid] in
theorem client_atBase_iff : c.atBase u = true ↔ (c.threads u).sending = none ∧ (c.threads u).pc = .idle := by
  unfold DummyClient.atBase
  split
  · rename_i h
    simp [h]
  · rename_i h
    simp only [Bool.false_eq_true, false_iff, not_and]
    intro h1 h2
    exact h (by rw [← h1, ← h2])

omit [DecidableEq Cid] in
theorem client_view_setSession (c : DummyClient Cid Sid) (a : Sid) (session : ServerSession Cid) :
    (c.setSession a session).view =
      { c.view with sends := update c.view.sends a session.send, begun := update c.view.begun a session.begun } := by
  simp only [DummyClient.view, DummyClient.setSession, update_map ServerSession.send, update_map ServerSession.begun]

omit [DecidableEq Sid] in
theorem client_view_setThread (c : DummyClient Cid Sid) (u : Cid) (th : ClientThread Sid) :
    (c.setThread u th).view = { c.view with pc := update c.view.pc u th.pc } := by
  simp only [DummyClient.view, DummyClient.setThread, update_map ClientThread.pc]

theorem client_view_setSend (c : DummyClient Cid Sid) (u : Cid) (a : Sid) (send : SendState Cid ClientPacket) :
    (c.setSend u a send).view = { c.view with sends := update c.view.sends a send } := by
  rw [DummyClient.setSend, client_view_setThread, client_view_setSession]
  simp only [DummyClient.view, update_eq_self]

theorem client_callSend_view {pkt : ClientPacket} (he : c.callSend u a pkt = some c') :
    ∃ send, sendStep (c.view.sends a) (.send u pkt) = some send ∧
      c'.view = { c.view with sends := update c.view.sends a send } := by
  obtain ⟨send, hs, rfl⟩ := Option.map_eq_some_iff.1 he
  exact ⟨send, hs, client_view_setSend ..⟩

/-- **Every step is one of these.** -/
theorem clientStep_cases {act : ClientAct Cid Sid} (he : clientStep c act = some c') :
    c'.view = c.view ∨ ClientStep c.view c'.view := by
  cases act with
  | connect u a =>
    simp only [clientStep] at he
    split at he
    · rename_i h
      cases he
      have hsends : update c.view.sends a (c.sessions a).send = c.view.sends := update_eq_self a c.view.sends
      rw [DummyClient.setPc, client_view_setThread, client_view_setSession, hsends]
      exact .inr (.connect (client_atBase_iff.1 h.1).2 h.2)
    · cases he
  | broadcast u order =>
    simp only [clientStep] at he
    split at he
    · rename_i h
      cases he
      rw [DummyClient.setPc, client_view_setThread]
      have hpc : c.view.pc u = .idle := (client_atBase_iff.1 h.1).2
      exact .inr (.move (fun a => by rw [hpc]; rfl))
    · cases he
  | complete u a i numOfBytes =>
    simp only [clientStep] at he
    split at he
    · obtain ⟨send, hs, rfl⟩ := Option.map_eq_some_iff.1 he
      rw [client_view_setSend]
      exact .inr (.inner (fun _ _ h => by cases h) hs)
    · cases he
  | disconnect a =>
    simp only [clientStep] at he
    split at he
    · obtain ⟨send, hs, rfl⟩ := Option.map_eq_some_iff.1 he
      have hbegun : update c.view.begun a (c.sessions a).begun = c.view.begun := update_eq_self a c.view.begun
      rw [client_view_setSession, hbegun]
      exact .inr (.inner (fun _ _ h => by cases h) hs)
    · cases he
  | release u a =>
    simp only [clientStep] at he
    split at he
    · cases he
      exact .inl rfl
    · cases he
  | next u wsaSend =>
    simp only [clientStep, DummyClient.next] at he
    split at he
    · obtain ⟨send, hs, rfl⟩ := Option.map_eq_some_iff.1 he
      rw [client_view_setSend]
      exact .inr (.inner (fun _ _ h => by cases h) hs)
    · split at he
      case h_1 => cases he
      case h_2 a hpc =>
        split at he
        · cases he
          rw [DummyClient.setPc, client_view_setThread]
          have hpc : c.view.pc u = .addSession a := hpc
          refine .inr (.move (fun b => ?_))
          rw [hpc]
          simp [ClientPc.greets]
        · cases he
      case h_3 a hpc =>
        obtain ⟨send, hs, hview⟩ := client_callSend_view he
        rw [hview, DummyClient.setPc, client_view_setThread]
        exact .inr (.greet hpc hs)
      case h_4 a hpc =>
        cases he
        have hsends : update c.view.sends a (c.sessions a).send = c.view.sends := update_eq_self a c.view.sends
        have hbegun : update c.view.begun a (c.sessions a).begun = c.view.begun := update_eq_self a c.view.begun
        rw [DummyClient.setPc, client_view_setThread, client_view_setSession, hsends, hbegun]
        have hpc : c.view.pc u = .registerRecv a := hpc
        exact .inr (.move (fun b => by rw [hpc]; rfl))
      case h_5 hpc =>
        cases he
        rw [DummyClient.setPc, client_view_setThread]
        have hpc : c.view.pc u = .broadcast [] := hpc
        exact .inr (.move (fun b => by rw [hpc]; rfl))
      case h_6 a rest hpc =>
        obtain ⟨send, hs, hview⟩ := client_callSend_view he
        rw [hview, DummyClient.setPc, client_view_setThread]
        exact .inr (.chat hpc hs)

/-- **A packet of the server.** -/
theorem onRecvPacket_cases {call : ServerPacketHandler.Call} (he : c.onRecvPacket u a call = some c') :
    ((∀ pkt, call = .Handle_S_LOGIN pkt → pkt.success = false) ∧ (∀ pkt, call ≠ .Handle_S_CHAT pkt) ∧
      c'.view = c.view) ∨
    (∃ pkt send, call = .Handle_S_LOGIN pkt ∧ pkt.success = true ∧
      sendStep (c.view.sends a) (.send u (.C_ENTER_GAME ⟨0⟩)) = some send ∧
      c'.view = { c.view with sends := update c.view.sends a send }) ∨
    ∃ pkt, call = .Handle_S_CHAT pkt ∧ c'.view = { c.view with printed := c.view.printed ++ [pkt.msg] } := by
  simp only [DummyClient.onRecvPacket] at he
  split at he
  case isFalse => cases he
  cases call with
  | Handle_INVALID | Handle_S_ENTER_GAME pkt =>
    cases he
    exact .inl ⟨(fun _ h => by cases h), (fun _ h => by cases h), rfl⟩
  | Handle_S_LOGIN pkt =>
    simp only [DummyClient.handle] at he
    split at he
    · rename_i hfail
      cases he
      exact .inl ⟨(fun _ h => by cases h; exact hfail), (fun _ h => by cases h), rfl⟩
    · rename_i hok
      obtain ⟨send, hs, hview⟩ := client_callSend_view he
      exact .inr (.inl ⟨pkt, send, rfl, by simpa using hok, hs, hview⟩)
  | Handle_S_CHAT pkt =>
    cases he
    exact .inr (.inr ⟨pkt, rfl, rfl⟩)

end

/-- The sending side of a session makes steps of its own model. -/
theorem ClientStep.sends {v v' : ClientView Cid Sid} (hstep : ClientStep v v') (b : Sid) :
    v'.sends b = v.sends b ∨ ∃ act, sendStep (v.sends b) act = some (v'.sends b) := by
  have hsend : ∀ {a : Sid} {act : SendAct Cid ClientPacket} {send : SendState Cid ClientPacket},
      sendStep (v.sends a) act = some send → update v.sends a send b = v.sends b ∨
        ∃ act, sendStep (v.sends b) act = some (update v.sends a send b) := fun {a act send} he => by
    by_cases hb : b = a
    · subst hb
      rw [update_self]
      exact .inr ⟨act, he⟩
    · exact .inl (update_of_ne hb _ _)
  cases hstep with
  | inner hact he => exact hsend he
  | connect | move => exact .inl rfl
  | greet hpc he => exact hsend he
  | chat hpc he => exact hsend he

theorem ClientStep.printed {v v' : ClientView Cid Sid} (hstep : ClientStep v v') : v'.printed = v.printed := by
  cases hstep <;> rfl

/-! ## What a session says -/

variable [Fintype Cid]

/-- The `C_LOGIN`s a session has been given, and those it has still to be given. -/
def ClientView.logins (v : ClientView Cid Sid) (a : Sid) : Nat :=
  (v.sends a).given ClientPacket.isLogin + tally (ClientPc.greets a) v.pc + (!v.begun a).toNat

variable {v v' : ClientView Cid Sid}

omit [DecidableEq Cid] in
/-- A step of one session's sending side, for all sessions. -/
theorem passes_update {p : ClientPacket → Bool} {a : Sid} {send : SendState Cid ClientPacket} {n : Nat}
    (h : Passes p (v.sends a) send n) (b : Sid) :
    Passes p (v.sends b) (update v.sends a send b) (if a = b then n else 0) := by
  by_cases hab : a = b
  · subst hab
    rw [update_self, if_pos rfl]
    exact h
  · rw [update_of_ne (Ne.symm hab), if_neg hab]
    exact ⟨le_refl _, fun hc => ⟨hc, le_refl _⟩⟩

/-- **A session says `C_LOGIN` once**, unless it is disconnected. -/
theorem ClientStep.logins (hstep : ClientStep v v') (b : Sid) : v'.logins b ≤ v.logins b ∧
    ((v'.sends b).connected = true → (v.sends b).connected = true ∧ v.logins b ≤ v'.logins b) := by
  have hthread := tally_update (ClientPc.greets b) v.pc
  cases hstep with
  | @inner a act send hact he =>
    have h := passes_update (passes_inner ClientPacket.isLogin hact he) b
    rw [ite_self] at h
    exact ⟨Nat.add_le_add_right (Nat.add_le_add_right h.le _) _,
      fun hc => ⟨(h.ge hc).1, Nat.add_le_add_right (Nat.add_le_add_right (h.ge hc).2 _) _⟩⟩
  | @connect u a hpc hbegun =>
    have hmoved := hthread u (.addSession a)
    rw [hpc] at hmoved
    have heq : tally (ClientPc.greets b) (update v.pc u (.addSession a)) + (!update v.begun a true b).toNat =
        tally (ClientPc.greets b) v.pc + (!v.begun b).toNat := by
      by_cases hab : a = b
      · subst hab
        simp only [ClientPc.greets, true_or, if_true, reduceCtorEq, or_self, if_false] at hmoved
        simp only [update_self, hbegun, Bool.not_true, Bool.not_false, Bool.toNat_true, Bool.toNat_false]
        omega
      · simp only [ClientPc.greets, ClientPc.addSession.injEq, hab, reduceCtorEq, or_self, if_false] at hmoved
        rw [update_of_ne (Ne.symm hab)]
        omega
    simp only [ClientView.logins, Nat.add_assoc, heq]
    exact ⟨le_refl _, fun hc => ⟨hc, le_refl _⟩⟩
  | @move u pc hgreets =>
    have hmoved := hthread u pc
    rw [hgreets] at hmoved
    have heq : tally (ClientPc.greets b) (update v.pc u pc) = tally (ClientPc.greets b) v.pc := by omega
    simp only [ClientView.logins, heq]
    exact ⟨le_refl _, fun hc => ⟨hc, le_refl _⟩⟩
  | @greet u a send hpc he =>
    have hmoved := hthread u (.registerRecv a)
    have h := passes_update (passes_send ClientPacket.isLogin he) b
    rw [hpc] at hmoved
    have heq : tally (ClientPc.greets b) v.pc = tally (ClientPc.greets b) (update v.pc u (.registerRecv a)) +
        if a = b then (ClientPacket.C_LOGIN ⟨⟩).isLogin.toNat else 0 := by
      by_cases hab : a = b
      · subst hab
        simp only [ClientPc.greets, or_true, if_true, reduceCtorEq, or_self, if_false] at hmoved
        rw [if_pos rfl]
        exact hmoved.symm
      · simp only [ClientPc.greets, ClientPc.onConnected.injEq, hab, reduceCtorEq, or_self, if_false] at hmoved
        rw [if_neg hab]
        exact hmoved.symm
    have hle := h.le
    simp only [ClientView.logins]
    exact ⟨by omega, fun hc => ⟨(h.ge hc).1, by have := (h.ge hc).2; omega⟩⟩
  | @chat u a rest send hpc he =>
    have hmoved := hthread u (.broadcast rest)
    have h := passes_update (passes_send ClientPacket.isLogin he) b
    rw [hpc] at hmoved
    simp only [ClientPc.greets, reduceCtorEq, or_self, if_false] at hmoved
    rw [show (ClientPacket.C_CHAT helloPkt).isLogin.toNat = 0 from rfl, ite_self] at h
    have hle := h.le
    simp only [ClientView.logins]
    exact ⟨by omega, fun hc => ⟨(h.ge hc).1, by have := (h.ge hc).2; omega⟩⟩

/-- Nothing else is said without a packet of the server. -/
theorem ClientStep.passes (hstep : ClientStep v v') {p : ClientPacket → Bool} (hlogin : p (.C_LOGIN ⟨⟩) = false)
    (hchat : p (.C_CHAT helloPkt) = false) (b : Sid) : Passes p (v.sends b) (v'.sends b) 0 := by
  have hsend : ∀ {a : Sid} {send : SendState Cid ClientPacket}, Passes p (v.sends a) send 0 →
      Passes p (v.sends b) (update v.sends a send b) 0 := fun {a send} h => by
    have := passes_update h b
    rwa [ite_self] at this
  cases hstep with
  | inner hact he => exact hsend (passes_inner p hact he)
  | connect | move => exact ⟨le_refl _, fun hc => ⟨hc, le_refl _⟩⟩
  | greet hpc he =>
    have h := passes_send p he
    rw [hlogin] at h
    exact hsend h
  | chat hpc he =>
    have h := passes_send p he
    rw [hchat] at h
    exact hsend h

/-! ## In which order -/

/-- What a session is given besides its chats, when it may be given no more than this. -/
structure SaysOnce (s : SendState Cid ClientPacket) : Prop where
  logins : s.given ClientPacket.isLogin ≤ 1
  enters : s.given ClientPacket.isEnter ≤ 1
  foreign : s.given ClientPacket.isForeign = 0

/-- It pushes `C_LOGIN` and then `C_ENTER_GAME`. -/
structure LoginFirst (s : SendState Cid ClientPacket) : Prop where
  order : s.pushed.filter (fun pkt => !pkt.isChat) <+: [.C_LOGIN ⟨⟩, .C_ENTER_GAME ⟨0⟩]
  first : 0 < s.given ClientPacket.isEnter → .C_LOGIN ⟨⟩ ∈ s.pushed

omit [DecidableEq Cid] in
theorem loginFirst₀ : LoginFirst (sendState₀ : SendState Cid ClientPacket) where
  order := List.nil_prefix
  first h := absurd (given₀ ClientPacket.isEnter) (Nat.ne_of_gt h)

theorem prefix_pair_concat {α : Type} {x y z : α} {l : List α} (h : l <+: [x, y]) (hz : z = x ∨ z = y) (hnew : z ∉ l)
    (hfirst : z = y → x ∈ l) : l ++ [z] <+: [x, y] := by
  rcases List.prefix_cons_iff.1 h with rfl | ⟨l₁, rfl, h₁⟩
  · rcases hz with rfl | rfl
    · exact ⟨[y], rfl⟩
    · cases hfirst rfl
  · obtain rfl : z = y := hz.resolve_left (fun hx => hnew (hx ▸ List.mem_cons_self))
    rcases List.prefix_cons_iff.1 h₁ with rfl | ⟨l₂, rfl, -⟩
    · exact List.prefix_rfl
    · exact absurd (List.mem_cons_of_mem _ List.mem_cons_self) hnew

section
variable {s s' : SendState Cid ClientPacket}

omit [DecidableEq Cid] in
theorem countP_entering (p : ClientPacket → Bool) (u : Cid) :
    s.pushed.countP p + (s.pcs u).entering.countP p ≤ s.given p :=
  Nat.add_le_add_left (le_tally (fun pc : SendPc ClientPacket => pc.entering.countP p) s.pcs u) _

omit [DecidableEq Cid] in
/-- A packet of a kind that is given once has not been pushed while a thread is about to push it. -/
theorem not_pushed {u : Cid} {pkt : ClientPacket} (hpc : s.pcs u = .sendPush pkt) {p : ClientPacket → Bool}
    (hp : p pkt = true) (hone : s.given p ≤ 1) : pkt ∉ s.pushed := fun hmem => by
  have hpos := List.countP_pos_iff.2 ⟨pkt, hmem, hp⟩
  have hle := (countP_entering p u).trans hone
  rw [hpc, SendPc.entering, List.countP_singleton, if_pos hp] at hle
  omega

omit [DecidableEq Cid] in
/-- **A push.** -/
theorem LoginFirst.push (h : LoginFirst s) (hb : SaysOnce s) (u : Cid) :
    (s.pushed ++ (s.pcs u).entering).filter (fun pkt => !pkt.isChat) <+: [.C_LOGIN ⟨⟩, .C_ENTER_GAME ⟨0⟩] := by
  have hold : (s.pcs u).entering = [] → (s.pushed ++ (s.pcs u).entering).filter (fun pkt => !pkt.isChat) <+:
      [.C_LOGIN ⟨⟩, .C_ENTER_GAME ⟨0⟩] := fun hnil => by
    rw [hnil, List.append_nil]
    exact h.order
  cases hpc : s.pcs u with
  | sendPush pkt =>
    have hknown : pkt.isForeign = false := by
      by_contra hnot
      have hle := (countP_entering ClientPacket.isForeign u).trans hb.foreign.le
      rw [hpc, SendPc.entering, List.countP_singleton, if_pos (by simpa using hnot)] at hle
      omega
    simp only [ClientPacket.isForeign, List.mem_cons, List.not_mem_nil, or_false, decide_eq_false_iff_not, not_not]
      at hknown
    rw [SendPc.entering, List.filter_append]
    rcases hknown with rfl | rfl | rfl
    · exact prefix_pair_concat h.order (.inl rfl)
        (fun hmem => not_pushed hpc (p := ClientPacket.isLogin) rfl hb.logins (List.mem_filter.1 hmem).1)
        (fun heq => by cases heq)
    · refine prefix_pair_concat h.order (.inr rfl)
        (fun hmem => not_pushed hpc (p := ClientPacket.isEnter) rfl hb.enters (List.mem_filter.1 hmem).1) (fun _ => ?_)
      refine List.mem_filter.2 ⟨h.first ?_, rfl⟩
      have hle := countP_entering (s := s) ClientPacket.isEnter u
      simp only [hpc, SendPc.entering, List.countP_singleton, ClientPacket.isEnter, if_true] at hle
      omega
    · simpa [ClientPacket.isChat] using h.order
  | _ =>
    rw [hpc] at hold
    exact hold rfl

theorem LoginFirst.inner (h : LoginFirst s) (hb : SaysOnce s) {act : SendAct Cid ClientPacket}
    (hact : ∀ u pkt, act ≠ .send u pkt) (he : sendStep s act = some s') : LoginFirst s' := by
  have hsame : s'.pushed = s.pushed → LoginFirst s' := fun hpushed => by
    refine ⟨hpushed ▸ h.order, fun hpos => hpushed ▸ h.first ?_⟩
    exact lt_of_lt_of_le hpos (passes_inner _ hact he).le
  cases act with
  | send u pkt => exact absurd rfl (hact u pkt)
  | next u wsaSend =>
    obtain ⟨hpushed, -, -⟩ := sendStep_next he
    refine ⟨hpushed ▸ h.push hb u, fun hpos => ?_⟩
    exact hpushed ▸ List.mem_append_left _ (h.first (lt_of_lt_of_le hpos (passes_inner _ hact he).le))
  | complete u i numOfBytes => exact hsame (sendStep_complete he).1
  | disconnect =>
    cases he
    exact hsame rfl

/-- A call of `Send`; a `C_ENTER_GAME` comes after `C_LOGIN`. -/
theorem LoginFirst.send (h : LoginFirst s) {u : Cid} {pkt : ClientPacket} (he : sendStep s (.send u pkt) = some s')
    (hfirst : pkt.isEnter = true → .C_LOGIN ⟨⟩ ∈ s.pushed) : LoginFirst s' := by
  have hpushed : s'.pushed = s.pushed := (sendStep_send he).1
  refine ⟨hpushed ▸ h.order, fun hpos => hpushed ▸ ?_⟩
  have hle := (passes_send ClientPacket.isEnter he).le
  cases hpkt : pkt.isEnter with
  | true => exact hfirst hpkt
  | false =>
    rw [hpkt, Bool.toNat_false, Nat.add_zero] at hle
    exact h.first (lt_of_lt_of_le hpos hle)

end

end Geon
