import GeonServer.ClientRest
import GeonServer.PlayHeard
/-!
# PlaySettles — everybody hears everything, in the end

Once `main` does not broadcast any more and no session connects or is disconnected, the server and its clients come to
rest, in every order of the steps of their threads, of the completions and of the packets in which no thread takes a batch
from the room's queue while it is empty and a pusher is on its way: what the clients may still say pays for what the
server does about it, that for what the clients hear, and a client says something new only once for what it hears
(`PlayState.left`).  Where nothing is left, a session has logged in and entered, and has heard all that was said from
then on (`play_settles`).
-/
namespace Geon

open Lts Function

variable {Tid Cid Sid : Type} [DecidableEq Tid] [DecidableEq Cid] [DecidableEq Sid]

/-! ## Runs -/

/-- No `WSASend` of the client fails. -/
def ClientSends (c : DummyClient Cid Sid) : ClientAct Cid Sid → Prop
  | .next u wsaSend => ∀ a ∈ (c.threads u).sending, ((c.sessions a).send.pcs u).posting = true → wsaSend.failed = none
  | _ => True

instance (c : DummyClient Cid Sid) (act : ClientAct Cid Sid) : Decidable (ClientSends c act) :=
  match act with
  | .next .. => inferInstanceAs (Decidable (∀ a ∈ _, _))
  | .connect .. | .broadcast .. | .complete .. | .disconnect .. | .release .. => .isTrue trivial

variable [Fintype Tid]

/-- Fewer than 2³¹ jobs are pending on the room, and no `WSASend` fails. -/
def PlayFine (s : PlayState Tid Cid Sid) (act : PlayAct Tid Cid Sid) (s' : PlayState Tid Cid Sid) : Prop :=
  PlayOk s act s' ∧
    match act with
    | .client act => ClientSends s.client act
    | _ => True

instance (s : PlayState Tid Cid Sid) (act : PlayAct Tid Cid Sid) (s' : PlayState Tid Cid Sid) :
    Decidable (PlayFine s act s') :=
  match act with
  | .client act => inferInstanceAs (Decidable (_ ∧ ClientSends s.client act))
  | .server _ | .toServer _ _ | .toClient _ _ => inferInstanceAs (Decidable (_ ∧ True))

def FineReach (s : PlayState Tid Cid Sid) : Prop := Reach playStep PlayFine playState₀ s

/-- `main` does not broadcast and no session connects, is disconnected or released, on either side; what is left are the
steps of the threads, the completions and the packets.  No `WSASend` fails, and no thread takes a batch from the room's
queue while it is empty and a pusher is on its way. -/
def PlayCalm (s : PlayState Tid Cid Sid) (act : PlayAct Tid Cid Sid) (s' : PlayState Tid Cid Sid) : Prop :=
  JobsBounded s'.server.jobs ∧
    match act with
    | .server act => Calm s.server act s'.server
    | .client (.next u wsaSend) => ClientSends s.client (.next u wsaSend)
    | .client (.complete _ _ _ _) | .toServer _ _ | .toClient _ _ => True
    | .client _ => False

variable {s s' : PlayState Tid Cid Sid} {act : PlayAct Tid Cid Sid}

omit [DecidableEq Tid] [DecidableEq Cid] [DecidableEq Sid] in
theorem PlayCalm.fine (h : PlayCalm s act s') : PlayFine s act s' := by
  obtain ⟨hb, h⟩ := h
  cases act with
  | server act => exact ⟨⟨hb, h.noSendFails⟩, trivial⟩
  | client act =>
    cases act with
    | next u wsaSend => exact ⟨⟨hb, trivial⟩, h⟩
    | complete u a i numOfBytes => exact ⟨⟨hb, trivial⟩, trivial⟩
    | _ => exact absurd h id
  | toServer t a | toClient u a => exact ⟨⟨hb, trivial⟩, trivial⟩

theorem FineReach.play (h : FineReach s) : PlayReach s := h.mono (fun _ _ _ hok => hok.1)

omit [DecidableEq Tid] [Fintype Tid] in
theorem sends_setSend (c : DummyClient Cid Sid) (u : Cid) (a : Sid) (send : SendState Cid ClientPacket) (b : Sid) :
    ((c.setSend u a send).sessions b).send = if b = a then send else (c.sessions b).send := by
  by_cases hb : b = a
  · subst hb
    simp only [DummyClient.setSend, DummyClient.setThread, DummyClient.setSession, update_self, if_true]
  · simp only [DummyClient.setSend, DummyClient.setThread, DummyClient.setSession, update_of_ne hb, if_neg hb]

omit [DecidableEq Tid] [Fintype Tid] in
/-- A step in the sending code of one session. -/
theorem sendReach_setSend {c : DummyClient Cid Sid} (h : ∀ a, SendReach (c.sessions a).send) {u : Cid} {a : Sid}
    {act : SendAct Cid ClientPacket} {send : SendState Cid ClientPacket}
    (he : sendStep (c.sessions a).send act = some send) (hok : FailsWhenClosing (c.sessions a).send act send) (b : Sid) :
    SendReach ((c.setSend u a send).sessions b).send := by
  rw [sends_setSend]
  split
  · exact (h a).next he hok
  · exact h b

omit [DecidableEq Tid] [Fintype Tid] in
theorem sendReach_callSend {c c' : DummyClient Cid Sid} (h : ∀ a, SendReach (c.sessions a).send) {u : Cid} {a : Sid}
    {pkt : ClientPacket} (he : c.callSend u a pkt = some c') (b : Sid) : SendReach (c'.sessions b).send := by
  obtain ⟨send, hs, rfl⟩ := Option.map_eq_some_iff.1 he
  exact sendReach_setSend h hs trivial b

omit [DecidableEq Tid] [Fintype Tid] in
/-- **The sessions of the client** make steps of the send path, whose `WSASend` does not fail. -/
theorem sendReach_client {c c' : DummyClient Cid Sid} (h : ∀ a, SendReach (c.sessions a).send) {act : ClientAct Cid Sid}
    (he : clientStep c act = some c') (hok : ClientSends c act) (b : Sid) : SendReach (c'.sessions b).send := by
  have hsame : ∀ {a : Sid} {session : ServerSession Cid}, session.send = (c.sessions a).send →
      SendReach ((c.setSession a session).sessions b).send := fun {a session} hsend => by
    have := apply_update_of_eq ServerSession.send c.sessions hsend b
    rw [DummyClient.setSession, this]
    exact h b
  cases act with
  | connect u a =>
    simp only [clientStep] at he
    split at he
    · cases he
      exact hsame rfl
    · cases he
  | broadcast u order =>
    simp only [clientStep] at he
    split at he
    · cases he
      exact h b
    · cases he
  | complete u a i numOfBytes =>
    simp only [clientStep] at he
    split at he
    · obtain ⟨send, hs, rfl⟩ := Option.map_eq_some_iff.1 he
      exact sendReach_setSend h hs trivial b
    · cases he
  | disconnect a =>
    simp only [clientStep] at he
    split at he
    · obtain ⟨send, hs, rfl⟩ := Option.map_eq_some_iff.1 he
      by_cases hb : b = a
      · subst hb
        simp only [DummyClient.setSession, update_self]
        exact (h b).next hs trivial
      · simp only [DummyClient.setSession, update_of_ne hb]
        exact h b
    · cases he
  | release u a =>
    simp only [clientStep] at he
    split at he
    · cases he
      exact h b
    · cases he
  | next u wsaSend =>
    simp only [clientStep, DummyClient.next] at he
    split at he
    case h_1 a hsending =>
      obtain ⟨send, hs, rfl⟩ := Option.map_eq_some_iff.1 he
      refine sendReach_setSend h hs (fun hpost _ errorCode herr => ?_) b
      rw [hok a hsending hpost] at herr
      cases herr
    case h_2 hnone =>
      split at he
      case h_1 => cases he
      case h_2 a hpc =>
        split at he
        · cases he
          exact h b
        · cases he
      case h_3 a hpc => exact sendReach_callSend (c := c.setPc u (.registerRecv a)) h he b
      case h_4 a hpc =>
        cases he
        exact hsame rfl
      case h_5 hpc =>
        cases he
        exact h b
      case h_6 a rest hpc => exact sendReach_callSend (c := c.setPc u (.broadcast rest)) h he b

omit [DecidableEq Tid] [Fintype Tid] in
theorem sendReach_recv {c c' : DummyClient Cid Sid} (h : ∀ a, SendReach (c.sessions a).send) {u : Cid} {a : Sid}
    {call : ServerPacketHandler.Call} (he : c.onRecvPacket u a call = some c') (b : Sid) :
    SendReach (c'.sessions b).send := by
  simp only [DummyClient.onRecvPacket] at he
  split at he
  case isFalse => cases he
  cases call with
  | Handle_INVALID | Handle_S_ENTER_GAME pkt | Handle_S_CHAT pkt =>
    cases he
    exact h b
  | Handle_S_LOGIN pkt =>
    simp only [DummyClient.handle] at he
    split at he
    · cases he
      exact h b
    · exact sendReach_callSend h he b

theorem FineReach.client (h : FineReach s) : ClientInv s.client ∧ ∀ a, SendReach (s.client.sessions a).send := by
  refine Reach.inv (P := fun s : PlayState Tid Cid Sid => ClientInv s.client ∧ ∀ a, SendReach (s.client.sessions a).send)
    h ⟨clientInv₀, fun _ => .start⟩ (fun s act s' hr hI he hok => ?_)
  obtain ⟨hI, hS⟩ := hI
  cases act with
  | server act =>
    obtain ⟨-, server, -, rfl⟩ := playStep_server he
    exact ⟨hI, hS⟩
  | client act =>
    obtain ⟨client, hs, rfl⟩ := Option.map_eq_some_iff.1 he
    exact ⟨hI.step hs, sendReach_client hS hs hok.2⟩
  | toServer t a =>
    simp only [playStep] at he
    split at he
    · cases he
    · obtain ⟨server, -, rfl⟩ := Option.map_eq_some_iff.1 he
      exact ⟨hI, hS⟩
  | toClient u a =>
    simp only [playStep] at he
    split at he
    · cases he
    · obtain ⟨client, hs, rfl⟩ := Option.map_eq_some_iff.1 he
      exact ⟨hI.recv hs, sendReach_recv hS hs⟩

/-! ## What is left -/

variable [Fintype Cid] [Fintype Sid]

/-- What may still come to the server: a session says `C_LOGIN` and `C_ENTER_GAME` once, and its chats. -/
def PlayState.asks (s : PlayState Tid Cid Sid) : Nat := 2 * Fintype.card Sid + s.client.chats - tally id s.taken

/-- What the server has sent and a client has still to receive. -/
def PlayState.tells (s : PlayState Tid Cid Sid) : Nat :=
  tally id (fun a => (s.toClient a).length) - tally id s.received

/-- **What is left to do**: each of these pays for what comes after it. -/
def PlayState.left (s : PlayState Tid Cid Sid) : Nat ×ₗ (Nat ×ₗ Nat ×ₗ Nat) ×ₗ Nat ×ₗ Nat :=
  toLex (s.asks, toLex (s.server.work, toLex (s.tells, s.client.work)))

theorem length_eq_kinds (l : List ClientPacket) : l.length = l.countP ClientPacket.isLogin +
    l.countP ClientPacket.isEnter + l.countP ClientPacket.isChat := by
  induction l with
  | nil => rfl
  | cons pkt l ih =>
    simp only [List.length_cons, List.countP_cons, ih]
    cases pkt <;> simp [ClientPacket.isLogin, ClientPacket.isEnter, ClientPacket.isChat] <;> omega

omit [Fintype Sid] in
/-- A session says no more than that. -/
theorem PlayReach.toServer_le (h : PlayReach s) (a : Sid) :
    (s.toServer a).length ≤ 2 + (s.client.sessions a).send.given ClientPacket.isChat := by
  have hpushed : (s.toServer a).length ≤ (s.client.sessions a).send.pushed.length :=
    (posted_sublist (h.client a)).length_le
  have honce := h.inv.bounded h a
  have hkinds := length_eq_kinds (s.client.sessions a).send.pushed
  have hgiven : ∀ p : ClientPacket → Bool, (s.client.sessions a).send.pushed.countP p ≤
      (s.client.sessions a).send.given p := fun p => Nat.le_add_right _ _
  have hlogins := (hgiven ClientPacket.isLogin).trans honce.logins
  have henters := (hgiven ClientPacket.isEnter).trans honce.enters
  have hchats := hgiven ClientPacket.isChat
  omega

theorem PlayReach.taken_le (h : PlayReach s) : tally id s.taken ≤ 2 * Fintype.card Sid + s.client.chats := by
  calc tally id s.taken
      ≤ ∑ a, (2 + (s.client.sessions a).send.given ClientPacket.isChat) :=
        Finset.sum_le_sum (fun a _ => (h.cursorsIn.taken a).trans (h.toServer_le a))
    _ = 2 * Fintype.card Sid + tally (SendState.given ClientPacket.isChat) (fun a => (s.client.sessions a).send) := by
        rw [Finset.sum_add_distrib, Finset.sum_const_nat (fun _ _ => rfl), Finset.card_univ, Nat.mul_comm]
        rfl
    _ ≤ 2 * Fintype.card Sid + s.client.chats := Nat.add_le_add_left (Nat.le_add_right _ _) _

omit [Fintype Cid] [DecidableEq Cid] [DecidableEq Tid] [Fintype Tid] in
theorem tally_succ (n : Sid → Nat) (a : Sid) : tally id (update n a (n a + 1)) = tally id n + 1 := by
  have := tally_update id n a (n a + 1)
  simp only [id] at this ⊢
  omega

/-- **Every step that is left leaves less.** -/
theorem FineReach.left_lt (h : FineReach s) (he : playStep s act = some s') (hcalm : PlayCalm s act s') :
    s'.left < s.left := by
  have hr' : PlayReach s' := FineReach.play (h.next he hcalm.fine)
  have hfifo : ∀ a, ∃ w, SendFifo (s.client.sessions a).send w := fun a => sendFifo_of_reach (h.play.client a)
  have hclient : ∀ {client : DummyClient Cid Sid}, Goes s.client client →
      PlayState.left { s with client := client } < s.left := fun hgoes =>
    lex_of_le (Nat.sub_le_sub_right (Nat.add_le_add_left hgoes.chats _) _)
      (Prod.Lex.right _ (Prod.Lex.right _ hgoes.work))
  cases act with
  | server act =>
    obtain ⟨-, server, hs, rfl⟩ := playStep_server he
    obtain ⟨r', hroom, -⟩ := hr'.server.inv
    exact Prod.Lex.right _ (Prod.Lex.left _ _ (chatStep_work h.play.server hs hcalm.2 hroom))
  | client act =>
    obtain ⟨client, hs, rfl⟩ := Option.map_eq_some_iff.1 he
    cases act with
    | next u wsaSend => exact hclient (goes_next hfifo hs)
    | complete u a i numOfBytes => exact hclient (goes_complete hfifo hs)
    | _ => exact absurd hcalm.2 id
  | toServer t a =>
    simp only [playStep] at he
    split at he
    · cases he
    · obtain ⟨server, hs, rfl⟩ := Option.map_eq_some_iff.1 he
      have hle := hr'.taken_le
      have htaken := tally_succ s.taken a
      refine Prod.Lex.left _ _ ?_
      simp only [PlayState.asks] at hle ⊢
      omega
  | toClient u a =>
    simp only [playStep] at he
    split at he
    · cases he
    · obtain ⟨client, hs, rfl⟩ := Option.map_eq_some_iff.1 he
      have hle : tally id (update s.received a (s.received a + 1)) ≤ tally id (fun a => (s.toClient a).length) :=
        Finset.sum_le_sum (fun b _ => hr'.cursorsIn.received b)
      have hreceived := tally_succ s.received a
      refine lex_of_le (Nat.sub_le_sub_right (Nat.add_le_add_left (chats_recv hs) _) _)
        (Prod.Lex.right _ (Prod.Lex.left _ _ ?_))
      have hsame : ∀ b, PlayState.toClient { s with
          client := client, received := update s.received a (s.received a + 1) } b = s.toClient b := fun _ => rfl
      simp only [PlayState.tells, hsame]
      omega

/-! ## Where nothing is left -/

/-- A handler is about to use a player of the session that is not there. -/
def PlayerGone (s : PlayState Tid Cid Sid) (a : Sid) : Prop :=
  (∃ t, (s.server.workers t).handler = .enterGame a ∧ (s.server.sessions a).currentPlayer = none) ∨
    ∃ pkt, (s.toServer a)[s.taken a]? = some (.C_ENTER_GAME pkt) ∧
      (s.server.sessions a).players[pkt.playerIndex.toNat]? = none

/-- No thread is inside anything, everything that was sent has come, and all that a connected client has said and is to
hear was sent. -/
structure PlayRest (s : PlayState Tid Cid Sid) : Prop where
  server : ChatRest s.server
  client : ClientRest s.client
  asked : ∀ a, s.asked a = s.toServer a
  heard : ∀ a, (s.client.sessions a).begun = true → (s.client.sessions a).send.connected = true →
    s.heard a = s.toClient a
  said : ∀ a, (s.client.sessions a).send.connected = true → s.toServer a = (s.client.sessions a).send.pushed

omit [Fintype Sid] in
/-- **Only `OnDisconnected` takes players away.** -/
theorem PlayerGone.disconnected (h : PlayReach s) {a : Sid} (hgone : PlayerGone s a) :
    (s.server.sessions a).disconnected = true := by
  rcases hgone with ⟨t, hhandler, hplayer⟩ | ⟨pkt, hpkt, hplayer⟩
  · have hok := h.server.loginInv.threads t
    have hview : s.server.view.handler t = .enterGame a := hhandler
    rw [hview] at hok
    refine hok.resolve_right (fun hcurrent => ?_)
    have hcurrent : (s.server.sessions a).currentPlayer.isSome = true := hcurrent
    rw [hplayer] at hcurrent
    cases hcurrent
  · by_contra hnot
    obtain ⟨player, hthere, -⟩ := h.player (List.mem_of_getElem? hpkt) (by simpa using hnot)
    rw [hplayer] at hthere
    cases hthere

omit [Fintype Cid] [Fintype Sid] in
/-- `OnDisconnected` is not called any more. -/
theorem PlayCalm.stays (h : PlayReach s) (he : playStep s act = some s') (hcalm : PlayCalm s act s') :
    s'.server.view.disconnected = s.server.view.disconnected := by
  cases act with
  | server act =>
    obtain ⟨-, server, hs, rfl⟩ := playStep_server he
    refine (h.server.loginStep hs).stays (fun a => ?_)
    cases act with
    | handle | onDisconnected | disconnect => exact absurd hcalm.2 id
    | pop | complete | next => exact fun heq => by cases heq
  | client act =>
    obtain ⟨client, -, rfl⟩ := Option.map_eq_some_iff.1 he
    rfl
  | toServer t a =>
    simp only [playStep] at he
    split at he
    · cases he
    · rename_i pkt hpkt
      obtain ⟨server, hs, rfl⟩ := Option.map_eq_some_iff.1 he
      refine (h.server.loginStep hs).stays (fun b => ?_)
      rw [asks_handler]
      cases pkt <;> exact fun heq => by cases heq
  | toClient u a =>
    simp only [playStep] at he
    split at he
    · cases he
    · obtain ⟨client, -, rfl⟩ := Option.map_eq_some_iff.1 he
      rfl

omit [DecidableEq Tid] [DecidableEq Cid] [DecidableEq Sid] [Fintype Cid] [Fintype Sid] in
theorem JobsDone.pending {Q Job : Type} [DecidableEq Q] {jobs : JobState Tid Q Job} (hI : JobInv jobs)
    (h : JobsDone jobs) (q : Q) : pending jobs q = 0 := by
  have htok := hI.token q
  have h0 : tokens jobs q = 0 := by
    simp only [tokens, (tally_eq_zero _ _).2 (fun t => ((h.quiescent q).thread t).1),
      List.count_eq_zero_of_not_mem (h.quiescent q).2]
  by_contra hne
  rw [h0, if_neg hne] at htok
  cases htok

omit [Fintype Cid] in
/-- What the sessions have asked the server to broadcast. -/
theorem PlayStep.broadcasts (hstep : PlayStep s s') (hr : PlayReach s)
    (h : s.server.view.handed RoomJob.isBroadCast = tally (List.countP ClientPacket.isChat) s.asked) :
    s'.server.view.handed RoomJob.isBroadCast = tally (List.countP ClientPacket.isChat) s'.asked := by
  cases hstep with
  | server hasks he hok hclient hasked hheard =>
    rw [hasked, (hr.server.loginStep he).broadcasts, chats_of_quiet hasks, Nat.add_zero, h]
  | client hstep hserver hasked hheard | toClient hb he hserver hasked hheard => rw [hserver, hasked, h]
  | @toServer t a pkt hpkt he hclient hasked hheard =>
    have hmade := (hr.server.loginStep he).broadcasts
    rw [asks_handler] at hmade
    have htally := tally_update (List.countP ClientPacket.isChat) s.asked a (s.asked a ++ [pkt])
    rw [← hasked, List.countP_append, List.countP_singleton] at htally
    have hpkt : (pkt.request a).chats = if pkt.isChat = true then 1 else 0 := by cases pkt <;> rfl
    omega

omit [DecidableEq Cid] [Fintype Cid] [Fintype Sid] in
/-- All jobs that were handed to a room at rest have entered its queue. -/
theorem ChatRest.entered {s : ChatState Tid Sid} (h : ChatRest s) (hr : ChatReach s) (p : RoomJob Sid → Bool) :
    s.roomJobs.countP p = s.view.handed p := by
  rw [countP_roomJobs, handed_eq]
  refine Finset.sum_congr rfl (fun t _ => ?_)
  have hall := hr.jobs.delivery.2.1 t ()
  rw [((h.jobs.quiescent ()).thread t).2.2, List.append_nil] at hall
  simp only [hall]

omit [DecidableEq Tid] [DecidableEq Cid] [DecidableEq Sid] [Fintype Cid] [Fintype Sid] in
/-- No thread is about to push. -/
theorem given_of_idle {ι Buf : Type} [Fintype ι] {send : SendState ι Buf} (h : SendIdle send) (p : Buf → Bool) :
    send.given p = send.pushed.countP p := by
  have hzero : tally (fun pc : SendPc Buf => pc.entering.countP p) send.pcs = 0 :=
    (tally_eq_zero _ _).2 (fun t => by rw [h t]; rfl)
  rw [SendState.given, hzero, Nat.add_zero]

/-- The session is connected at both ends, and no `OnDisconnected` has been there. -/
structure Playing (s : PlayState Tid Cid Sid) (a : Sid) : Prop where
  begun : (s.client.sessions a).begun = true
  client : (s.client.sessions a).send.connected = true
  server : (s.server.sessions a).send.connected = true
  stays : (s.server.sessions a).disconnected = false

omit [DecidableEq Tid] [DecidableEq Cid] [DecidableEq Sid] [Fintype Tid] [Fintype Cid] [Fintype Sid] in
theorem PlayRest.countP_said (h : PlayRest s) {a : Sid} (hp : Playing s a) (p : ClientPacket → Bool) :
    (s.asked a).countP p = (s.client.sessions a).send.pushed.countP p := by
  rw [h.asked a, h.said a hp.client]

omit [Fintype Sid] in
/-- It has logged in. -/
theorem PlayRest.logged_in (h : PlayRest s) (hr : PlayReach s) {a : Sid} (hp : Playing s a) :
    0 < (s.heard a).countP SendBufferRef.isLogin := by
  have hsaid : 0 < (s.asked a).countP ClientPacket.isLogin := by
    have hgreeted := hr.inv.told.greeted a hp.client
    have hgreets : tally (ClientPc.greets a) s.client.view.pc = 0 := (tally_eq_zero _ _).2 (fun u => by
      have hpc : s.client.view.pc u = .idle := (client_atBase_iff.1 (h.client.base u)).2
      rw [hpc]
      rfl)
    have hbegun : s.client.view.begun a = true := hp.begun
    have hgiven : (s.client.view.sends a).given ClientPacket.isLogin = _ := given_of_idle (h.client.sends a).idle _
    rw [ClientView.logins, hgreets, hbegun, hgiven] at hgreeted
    rw [h.countP_said hp]
    exact hgreeted
  have hanswered : 0 < (s.server.sessions a).send.pushed.countP SendBufferRef.isLogin := by
    have hle := hr.inv.served.answered a hp.server
    have hhandlers : tally (Handler.answering a) s.server.view.handler = 0 := (tally_eq_zero _ _).2 (fun t => by
      have hnone : s.server.view.handler t = .none := (atBase_iff.1 (h.server.base t)).2.1
      rw [hnone]
      rfl)
    have hgiven : s.server.view.logins a = _ := given_of_idle (h.server.sends a).idle SendBufferRef.isLogin
    rw [LoginView.answers, hhandlers, hgiven] at hle
    exact lt_of_lt_of_le hsaid hle
  obtain ⟨w, hinv⟩ := (hr.server.sendReach a).inv
  rw [h.heard a hp.begun hp.client, PlayState.toClient, (hinv.posted_all (h.server.sends a) hp.server).2]
  exact hanswered

omit [Fintype Sid] in
/-- It has entered. -/
theorem PlayRest.entered (h : PlayRest s) (hr : PlayReach s) {a : Sid} (hp : Playing s a) :
    ∃ before player after, s.server.roomJobs = before ++ .Enter player :: after ∧ player.ownerSession = a := by
  have hsaid : 0 < (s.asked a).countP ClientPacket.isEnter := by
    have hentered := hr.inv.told.entered a hp.client
    have hgiven : (s.client.view.sends a).given ClientPacket.isEnter = _ := given_of_idle (h.client.sends a).idle _
    rw [hgiven] at hentered
    rw [h.countP_said hp]
    exact lt_of_lt_of_le (h.logged_in hr hp) hentered
  rw [← hr.inv.served.enters a, ← h.server.entered hr.server] at hsaid
  obtain ⟨job, hjob, howner⟩ := List.countP_pos_iff.1 hsaid
  obtain ⟨before, after, hjobs⟩ := List.append_of_mem hjob
  cases job with
  | Enter player => exact ⟨before, player, after, hjobs, of_decide_eq_true howner⟩
  | _ => cases howner

end Geon
