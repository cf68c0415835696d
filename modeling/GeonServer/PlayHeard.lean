import GeonServer.ChatHeard
import GeonServer.PlayLogin
/-!
# PlayHeard — what the clients hear of the chat

A session enters the room with one player, so a broadcast calls `Send` on it at most once (`callsOn_sublist`), and from
its `Enter` on once each time (`callsOn_entered`).  A client hears the broadcasts in their order, none twice, and as long
as it stays it misses none from its `Enter` on (`clients_hear`).
-/
namespace Geon

open Lts Function

/-! ## A session with one player -/

variable {Sid : Type}

/-- The buffer of a broadcast. -/
def RoomJob.said : RoomJob Sid → Option SendBufferRef
  | .BroadCast b => some b
  | _ => none

variable [DecidableEq Sid]

/-- The players of a session in the room. -/
def seats (a : Sid) (jobs : List (RoomJob Sid)) : Nat :=
  (members (roomAfter jobs)).countP (fun player => decide (player.ownerSession = a))

theorem seats_le (a : Sid) (jobs : List (RoomJob Sid)) : seats a jobs ≤ jobs.countP (RoomJob.entersFor a) := by
  have hnodup : ((members (roomAfter jobs)).filter (fun player => decide (player.ownerSession = a))).Nodup :=
    ((nodup_members jobs).of_map _).filter _
  have hsub : (((members (roomAfter jobs)).filter (fun player => decide (player.ownerSession = a))).map RoomJob.Enter) ⊆
      jobs.filter (RoomJob.entersFor a) := fun job hjob => by
    obtain ⟨player, hplayer, rfl⟩ := List.mem_map.1 hjob
    obtain ⟨hmem, howner⟩ := List.mem_filter.1 hplayer
    obtain ⟨before, after, rfl, -⟩ := (mem_members jobs player).1 hmem
    exact List.mem_filter.2 ⟨List.mem_append_right _ List.mem_cons_self, howner⟩
  have hle := (List.subperm_of_subset (hnodup.map (fun _ _ => RoomJob.Enter.inj)) hsub).length_le
  rwa [List.length_map, ← List.countP_eq_length_filter, ← List.countP_eq_length_filter] at hle

theorem callsOn_append (calls more : List (SendBufferRef × Player Sid)) (a : Sid) :
    callsOn (calls ++ more) a = callsOn calls a ++ callsOn more a := by
  rw [callsOn, List.filter_append, List.map_append]
  rfl

/-- **A broadcast calls `Send` on a session** for each of its players in the room. -/
theorem callsOn_job (a : Sid) (jobs : List (RoomJob Sid)) (job : RoomJob Sid) :
    callsOn (job.calls (roomAfter jobs)) a = (job.said.toList.map (List.replicate (seats a jobs))).flatten := by
  cases job with
  | BroadCast b =>
    have hcalls : (RoomJob.BroadCast b).calls (roomAfter jobs) = (members (roomAfter jobs)).map (fun player => (b, player)) := by
      rw [members, List.map_map]
      rfl
    rw [hcalls, callsOn, List.filter_map, List.map_map]
    simp only [RoomJob.said, Option.toList_some, List.map_cons, List.map_nil, List.flatten_cons, List.flatten_nil,
      List.append_nil, seats, List.countP_eq_length_filter]
    exact List.eq_replicate_iff.2 ⟨by rw [List.length_map]; rfl, fun x hx => by
      obtain ⟨player, -, rfl⟩ := List.mem_map.1 hx
      rfl⟩
  | Enter | Leave => rfl

theorem callsOn_roomCalls (a : Sid) (jobs : List (RoomJob Sid)) (job : RoomJob Sid) :
    callsOn (roomCalls (jobs ++ [job])) a = callsOn (roomCalls jobs) a ++
      (job.said.toList.map (List.replicate (seats a jobs))).flatten := by
  rw [roomCalls_concat, callsOn_append, callsOn_job]

omit [DecidableEq Sid] in
theorem said_concat (jobs : List (RoomJob Sid)) (job : RoomJob Sid) :
    (jobs ++ [job]).filterMap RoomJob.said = jobs.filterMap RoomJob.said ++ job.said.toList := by
  rw [List.filterMap_append]
  cases job <;> rfl

/-- **No broadcast is called twice on a session** that enters once. -/
theorem callsOn_sublist {a : Sid} {jobs : List (RoomJob Sid)} (h : jobs.countP (RoomJob.entersFor a) ≤ 1) :
    (callsOn (roomCalls jobs) a).Sublist (jobs.filterMap RoomJob.said) := by
  induction jobs using List.reverseRecOn with
  | nil => exact .refl _
  | append_singleton jobs job ih =>
    have hjobs : jobs.countP (RoomJob.entersFor a) ≤ 1 := (List.sublist_append_left _ _).countP_le.trans h
    have hseats := (seats_le a jobs).trans hjobs
    rw [callsOn_roomCalls, said_concat]
    refine (ih hjobs).append ?_
    cases job with
    | BroadCast b =>
      rcases Nat.le_one_iff_eq_zero_or_eq_one.1 hseats with h0 | h1
      · simp [RoomJob.said, h0]
      · simp [RoomJob.said, h1]
    | Enter | Leave => exact .refl _

theorem callsOn_nil {a : Sid} {jobs : List (RoomJob Sid)} (h : jobs.countP (RoomJob.entersFor a) = 0) :
    callsOn (roomCalls jobs) a = [] := by
  induction jobs using List.reverseRecOn with
  | nil => rfl
  | append_singleton jobs job ih =>
    have hjobs : jobs.countP (RoomJob.entersFor a) = 0 :=
      Nat.eq_zero_of_le_zero ((List.sublist_append_left _ _).countP_le.trans h.le)
    have hseats := Nat.eq_zero_of_le_zero ((seats_le a jobs).trans hjobs.le)
    rw [callsOn_roomCalls, ih hjobs, hseats]
    cases job <;> rfl

/-- **Every broadcast from its `Enter` on is called on a session** once while its player is in the room. -/
theorem callsOn_entered {a : Sid} {before : List (RoomJob Sid)} {player : Player Sid} (howner : player.ownerSession = a) :
    ∀ after : List (RoomJob Sid), (before ++ .Enter player :: after).countP (RoomJob.entersFor a) ≤ 1 →
      (∀ more rest, after = more ++ rest → InRoom (before ++ .Enter player :: more) player) →
      callsOn (roomCalls (before ++ .Enter player :: after)) a = after.filterMap RoomJob.said := by
  intro after
  induction after using List.reverseRecOn with
  | nil =>
    intro hone _
    have hself : (RoomJob.Enter player).entersFor a = true := decide_eq_true howner
    rw [List.countP_append, List.countP_singleton, if_pos hself] at hone
    rw [callsOn_roomCalls, callsOn_nil (by omega)]
    rfl
  | append_singleton after job ih =>
    intro hone hin
    have hsplit : before ++ .Enter player :: (after ++ [job]) = (before ++ .Enter player :: after) ++ [job] := by simp
    rw [hsplit] at hone ⊢
    have hone' := (List.sublist_append_left _ _).countP_le.trans hone
    have hseats : seats a (before ++ .Enter player :: after) = 1 := by
      refine le_antisymm ((seats_le a _).trans hone') ?_
      exact List.countP_pos_iff.2 ⟨player, (mem_members _ _).2 (hin after [job] rfl), decide_eq_true howner⟩
    rw [callsOn_roomCalls, said_concat, hseats,
      ih hone' (fun more rest hmore => hin more (rest ++ [job]) (by rw [hmore, List.append_assoc]))]
    cases job <;> simp [RoomJob.said]

/-! ## What a client's session may do -/

variable {Tid Cid : Type} [DecidableEq Tid] [DecidableEq Cid] [Fintype Tid]

omit [DecidableEq Sid] in
theorem countP_entered {α : Type} (p : α → Bool) : ∀ entered : List (Tid × α), (entered.map Prod.snd).countP p =
    tally (fun t => ((entered.filter (fun e => decide (e.1 = t))).map Prod.snd).countP p) (fun t : Tid => t)
  | [] => by simp [tally]
  | (u, y) :: entered => by
    have ih := countP_entered p entered
    have hone : ∀ t, (((((u, y) :: entered).filter (fun e => decide (e.1 = t))).map Prod.snd).countP p) =
        ((entered.filter (fun e => decide (e.1 = t))).map Prod.snd).countP p + if u = t then [y].countP p else 0 := by
      intro t
      by_cases ht : u = t <;> simp [ht, List.countP_cons]
    simp only [tally, hone, Finset.sum_add_distrib, Finset.sum_ite_eq, Finset.mem_univ, if_true] at ih ⊢
    rw [← ih, List.map_cons, List.countP_cons, List.countP_singleton]

omit [DecidableEq Sid] in
/-- The jobs of a kind in the room's queue. -/
theorem countP_roomJobs (s : ChatState Tid Sid) (p : RoomJob Sid → Bool) : s.roomJobs.countP p =
    tally (fun t => ((s.jobs.queues ()).enteredBy t).countP (fun job => job.any p)) (fun t : Tid => t) := by
  have hjobs : s.roomJobs.countP p = ((s.jobs.queues ()).entered.map Prod.snd).countP (fun job => job.any p) := by
    rw [ChatState.roomJobs, List.countP_filterMap, List.countP_map]
    congr 1
    funext call
    obtain ⟨u, job⟩ := call
    cases job <;> rfl
  rw [hjobs, countP_entered]
  rfl

omit [DecidableEq Tid] [DecidableEq Sid] in
theorem handed_eq (s : ChatState Tid Sid) (p : RoomJob Sid → Bool) : s.view.handed p =
    tally (fun t => ((s.jobs.threads t).calls ()).countP (fun job => job.any p)) (fun t : Tid => t) := by
  refine Finset.sum_congr rfl (fun t _ => ?_)
  have hall : (s.jobs.threads t).calls () = (s.jobs.threads t).called.map Prod.snd := by
    rw [JobThread.calls, List.filter_eq_self.2 (by simp)]
  simp only [hall, List.countP_map]
  rfl

/-- The room's queue has each job that was handed to it once, at most. -/
theorem ChatReach.entered_le {s : ChatState Tid Sid} (h : ChatReach s) (p : RoomJob Sid → Bool) :
    s.roomJobs.countP p ≤ s.view.handed p := by
  rw [countP_roomJobs, handed_eq]
  refine Finset.sum_le_sum (fun t _ => List.Sublist.countP_le ?_)
  rw [← h.jobs.delivery.2.1 t ()]
  exact List.sublist_append_left _ _

variable [Fintype Cid] {s : PlayState Tid Cid Sid}

/-- **A session enters the room once.** -/
theorem PlayReach.enters_once (h : PlayReach s) (a : Sid) : s.server.roomJobs.countP (RoomJob.entersFor a) ≤ 1 :=
  calc s.server.roomJobs.countP (RoomJob.entersFor a)
      ≤ s.server.view.handed (RoomJob.entersFor a) := h.server.entered_le _
    _ = (s.asked a).countP ClientPacket.isEnter := h.inv.served.enters a
    _ ≤ (s.client.view.sends a).pushed.countP ClientPacket.isEnter := countP_posted (h.client a) _ _
    _ ≤ (s.client.view.sends a).given ClientPacket.isEnter := Nat.le_add_right _ _
    _ ≤ 1 := (h.inv.bounded h a).enters

/-- The `C_LOGIN`s that have come to the server. -/
def PlayState.logins [Fintype Sid] (s : PlayState Tid Cid Sid) : Nat :=
  tally (fun asked : List ClientPacket => asked.countP ClientPacket.isLogin) s.asked

omit [Fintype Cid] in
/-- **Each makes two players.** -/
theorem PlayStep.made [Fintype Sid] {s' : PlayState Tid Cid Sid} (hstep : PlayStep s s') (hr : PlayReach s)
    (h : s.server.view.made ≤ 2 * s.logins) : s'.server.view.made ≤ 2 * s'.logins := by
  cases hstep with
  | @server act hasks he hok hclient hasked hheard =>
    have hmade := (hr.server.loginStep he).made
    have hnone : act.asks.logins = 0 := logins_of_quiet hasks
    rw [hnone] at hmade
    rw [PlayState.logins, hasked]
    exact hmade.trans h
  | client hstep hserver hasked hheard =>
    rw [PlayState.logins, hserver, hasked]
    exact h
  | @toServer t a pkt hpkt he hclient hasked hheard =>
    have hmade := (hr.server.loginStep he).made
    rw [asks_handler] at hmade
    have hlogins : s'.logins + (s.asked a).countP ClientPacket.isLogin =
        s.logins + (s.asked a ++ [pkt]).countP ClientPacket.isLogin := by
      rw [PlayState.logins, hasked]
      exact tally_update _ s.asked a _
    rw [List.countP_append, List.countP_singleton] at hlogins
    have hpkt : (pkt.request a).logins = if pkt.isLogin = true then 1 else 0 := by cases pkt <;> rfl
    omega
  | toClient hb he hserver hasked hheard =>
    rw [PlayState.logins, hserver, hasked]
    exact h

/-- **There are no more than two players for each session.** -/
theorem PlayReach.created_le [Fintype Sid] (h : PlayReach s) : s.server.created.length ≤ 2 * Fintype.card Sid := by
  have hmade : s.server.view.made ≤ 2 * s.logins := by
    refine Reach.inv (P := fun s : PlayState Tid Cid Sid => s.server.view.made ≤ 2 * s.logins) h ?_
      (fun s act s' hr hP he hok => (playStep_cases (PlayReach.cursorsIn hr) he hok).1.made hr hP)
    have h0 : (playState₀ : PlayState Tid Cid Sid).server.view.made = 0 :=
      (Nat.zero_add _).trans (tally_const_zero (ι := Tid) Handler.making .none rfl)
    exact h0.le.trans (Nat.zero_le _)
  have hlogins : s.logins ≤ ∑ _a : Sid, 1 := Finset.sum_le_sum (fun a _ =>
    (countP_posted (h.client a) ClientPacket.isLogin _).trans (h.inv.login_once a))
  rw [← Fintype.card_eq_sum_ones] at hlogins
  have hcreated : s.server.created.length ≤ s.server.view.made := Nat.le_add_right _ _
  omega

/-! ## What comes to it -/

theorem eq_of_sublist_of_subset {α : Type} {l₁ l₂ : List α} (h : l₁.Sublist l₂) (hnodup : l₂.Nodup) (hsub : l₂ ⊆ l₁) :
    l₁ = l₂ :=
  h.eq_of_length_le (List.subperm_of_subset hnodup hsub).length_le

/-- **A connected session** is given the calls on it in their order, and misses none. -/
theorem ChatReach.pushed_connected {s : ChatState Tid Sid} (h : ChatReach s) {a : Sid}
    (hc : (s.sessions a).send.connected = true) (hnodup : (callsOn s.sendCalls a).Nodup)
    (hchat : ∀ b ∈ callsOn s.sendCalls a, b.isChat = true) :
    (s.sessions a).send.pushed.filter SendBufferRef.isChat <+: callsOn s.sendCalls a := by
  obtain ⟨r, -, hqueued⟩ := h.inv
  have hall : ((s.sessions a).send.pushed ++ (s.sessions a).send.arriving r).filter SendBufferRef.isChat =
      callsOn s.sendCalls a := by
    refine eq_of_sublist_of_subset (hqueued.queued a) hnodup (fun b hb => List.mem_filter.2 ⟨?_, hchat b hb⟩)
    rcases h.heard.heard a hc b hb with hpushed | ⟨t, ht⟩
    · exact List.mem_append_left _ hpushed
    · -- only the thread in the room's job brings a chat
      have hr : r = some t := by
        by_contra hr
        have hnot := hqueued.chat t a hr b ht
        rw [hchat b hb] at hnot
        cases hnot
      rw [hr]
      exact List.mem_append_right _ ht
  rw [← hall, List.filter_append]
  exact List.prefix_append _ _

/-- The broadcasts in the order the room's queue has them. -/
def ChatState.broadcasts (s : ChatState Tid Sid) : List SendBufferRef := s.roomJobs.filterMap RoomJob.said

omit [DecidableEq Tid] [Fintype Tid] [DecidableEq Sid] in
theorem mem_said {jobs : List (RoomJob Sid)} {b : SendBufferRef} :
    b ∈ jobs.filterMap RoomJob.said ↔ .BroadCast b ∈ jobs := by
  rw [List.mem_filterMap]
  constructor
  · rintro ⟨job, hjob, hsaid⟩
    cases job <;> cases hsaid
    exact hjob
  · exact fun h => ⟨_, h, rfl⟩

theorem ChatReach.broadcasts_nodup {s : ChatState Tid Sid} (h : ChatReach s) : s.broadcasts.Nodup := by
  refine List.nodup_iff_count_le_one.2 (fun b => ?_)
  have hcount : s.broadcasts.count b = s.roomJobs.count (.BroadCast b) := by
    rw [ChatState.broadcasts, List.count_filterMap, List.count]
    refine List.countP_congr (fun job _ => ?_)
    cases job <;> simp [RoomJob.said]
  exact hcount ▸ h.once b

/-- What is said is what the clients say. -/
theorem PlayReach.said (h : PlayReach s) {b : SendBufferRef} (hb : b ∈ s.server.broadcasts) :
    b.pkt = .S_CHAT ⟨0, helloPkt.msg⟩ := by
  obtain ⟨t, hcalled⟩ := h.server.called_of_job (mem_said.1 hb)
  exact h.inv.served.chats t b hcalled

/-- The calls on a session are broadcasts, none twice. -/
theorem PlayReach.calls_once (h : PlayReach s) (a : Sid) : (callsOn s.server.sendCalls a).Sublist s.server.broadcasts :=
  (((h.server.calls_first).sublist.filter _).map _).trans (callsOn_sublist (h.enters_once a))

omit [Fintype Cid] in
/-- What has come to a client is the first of what its session was given. -/
theorem PlayReach.heard_first (h : PlayReach s) (a : Sid) : (s.heard a).filter SendBufferRef.isChat <+:
    (s.server.sessions a).send.pushed.filter SendBufferRef.isChat := by
  exact ((List.take_prefix _ _).trans (posted_first (h.server.sends a))).filter _

theorem PlayReach.heard_sublist (h : PlayReach s) (a : Sid) :
    ((s.toClient a).filter SendBufferRef.isChat).Sublist s.server.broadcasts := by
  obtain ⟨r, -, hqueued⟩ := h.server.inv
  have hfirst : (s.toClient a).Sublist ((s.server.core.sends a).pushed ++ (s.server.core.sends a).arriving r) :=
    (posted_first (h.server.sends a)).sublist.trans (List.sublist_append_left _ _)
  exact ((hfirst.filter _).trans (hqueued.queued a)).trans (h.calls_once a)

/-- **From its `Enter` on** a client misses nothing while it stays. -/
theorem PlayReach.heard_entered [Fintype Sid] (h : PlayReach s) (hids : s.server.created.length < 2 ^ 64)
    {before after : List (RoomJob Sid)} {player : Player Sid}
    (hjobs : s.server.roomJobs = before ++ .Enter player :: after) (hleave : .Leave player ∉ after)
    (hc : (s.server.sessions player.ownerSession).send.connected = true) :
    (s.heard player.ownerSession).filter SendBufferRef.isChat <+: after.filterMap RoomJob.said := by
  have hin : ∀ more rest, after = more ++ rest → InRoom (before ++ .Enter player :: more) player :=
    fun more rest hmore => by
      have hsplit : s.server.roomJobs = (before ++ .Enter player :: more) ++ rest := by
        rw [hjobs, hmore, List.append_assoc, List.cons_append]
      exact (h.server.entered hids hsplit player).2
        ⟨before, more, rfl, fun hmem => hleave (hmore ▸ List.mem_append_left _ hmem)⟩
  have hcalls : callsOn (roomCalls s.server.roomJobs) player.ownerSession = after.filterMap RoomJob.said := by
    have hone := h.enters_once player.ownerSession
    rw [hjobs] at hone ⊢
    exact callsOn_entered rfl after hone hin
  have hsub := h.calls_once player.ownerSession
  have hchat : ∀ b ∈ callsOn s.server.sendCalls player.ownerSession, b.isChat = true := fun b hb =>
    isChat_of_pkt (h.said (hsub.subset hb))
  have hpushed := h.server.pushed_connected hc (hsub.nodup h.server.broadcasts_nodup) hchat
  rw [← hcalls]
  exact (h.heard_first _).trans (hpushed.trans ((h.server.calls_first.filter _).map _))

/-- `Handle_S_CHAT` is called for a chat, with what is said. -/
theorem handler_chat {b : SendBufferRef} {pkt : Protocol.S_CHAT} (h : b.pkt.handler = .Handle_S_CHAT pkt) :
    b.pkt = .S_CHAT pkt := by
  cases hpkt : b.pkt <;> rw [hpkt] at h <;> cases h
  rfl

theorem handler_of_isChat {b : SendBufferRef} (h : b.isChat = true) : ∃ pkt, b.pkt.handler = .Handle_S_CHAT pkt := by
  rw [SendBufferRef.isChat] at h
  split at h
  · rename_i pkt hpkt
    exact ⟨pkt, by rw [hpkt]; rfl⟩
  · cases h

/-- How many chats the clients have heard. -/
def PlayState.chats [Fintype Sid] (s : PlayState Tid Cid Sid) : Nat :=
  tally (fun heard : List SendBufferRef => heard.countP SendBufferRef.isChat) s.heard

/-- **A client prints what it hears.** -/
theorem PlayStep.printed [Fintype Sid] {s' : PlayState Tid Cid Sid} (hstep : PlayStep s s') (hr : PlayReach s)
    (h : s.client.printed = List.replicate s.chats helloPkt.msg) :
    s'.client.printed = List.replicate s'.chats helloPkt.msg := by
  cases hstep with
  | server _ _ _ hclient _ hheard | toServer _ _ hclient _ hheard => rw [hclient, PlayState.chats, hheard, h, PlayState.chats]
  | client hstep hserver hasked hheard =>
    have hprinted : s'.client.view.printed = s.client.view.printed := by
      rcases hstep with hsame | hstep
      · rw [hsame]
      · exact hstep.printed
    have hprinted : s'.client.printed = s.client.printed := hprinted
    rw [hprinted, PlayState.chats, hheard, h, PlayState.chats]
  | @toClient u a b hb he hserver hasked hheard =>
    have hchats : s'.chats + (s.heard a).countP SendBufferRef.isChat =
        s.chats + (s.heard a ++ [b]).countP SendBufferRef.isChat := by
      rw [PlayState.chats, hheard]
      exact tally_update _ s.heard a _
    rw [List.countP_append, List.countP_singleton] at hchats
    have hquiet : (∀ pkt, b.pkt.handler ≠ .Handle_S_CHAT pkt) → s'.client.view.printed = s.client.view.printed →
        s'.client.printed = List.replicate s'.chats helloPkt.msg := fun hnot hprinted => by
      have hprinted : s'.client.printed = s.client.printed := hprinted
      rw [if_neg (fun hchat => (handler_of_isChat hchat).elim hnot)] at hchats
      rw [hprinted, h, show s'.chats = s.chats by omega]
    rcases onRecvPacket_cases he with ⟨-, hnot, hsame⟩ | ⟨pkt, send, hcall, -, -, hview⟩ | ⟨pkt, hcall, hview⟩
    · exact hquiet hnot (by rw [hsame])
    · exact hquiet (fun pkt' heq => by rw [hcall] at heq; cases heq) (by rw [hview])
    · have hpkt := handler_chat hcall
      rw [if_pos (isChat_of_pkt hpkt)] at hchats
      have hmem : b ∈ (s.toClient a).filter SendBufferRef.isChat := List.mem_filter.2 ⟨hb, isChat_of_pkt hpkt⟩
      have hsaid := hr.said ((hr.heard_sublist a).subset hmem)
      rw [hpkt] at hsaid
      cases hsaid
      have hprinted : s'.client.printed = s.client.printed ++ [helloPkt.msg] :=
        congrArg ClientView.printed hview
      rw [hprinted, h, show s'.chats = s.chats + 1 by omega, List.replicate_succ']

/-- **What the clients hear**, in every run of the server and fewer than 2⁶³ sessions in which fewer than 2³¹ jobs are
pending and no `WSASend` of the server fails.  A broadcast calls `Send` for everyone who has entered and not left, and
for nobody else.  A client hears the broadcasts in the order they have in the room's queue and none of them twice; until
its session is disconnected or leaves it misses none that was queued after its `Enter`; and it prints what it
hears. -/
theorem clients_hear [Fintype Sid] (h : PlayReach s) (hcard : Fintype.card Sid < 2 ^ 63) :
    ChatOrdered Entered s.server ∧ s.server.broadcasts.Nodup ∧
    (∀ a, ((s.heard a).filter SendBufferRef.isChat).Sublist s.server.broadcasts) ∧
    (∀ before player after, s.server.roomJobs = before ++ .Enter player :: after → .Leave player ∉ after →
      (s.server.sessions player.ownerSession).send.connected = true →
      (s.heard player.ownerSession).filter SendBufferRef.isChat <+: after.filterMap RoomJob.said) ∧
    s.client.printed = List.replicate s.chats helloPkt.msg := by
  have hids : s.server.created.length < 2 ^ 64 := by
    have := h.created_le
    omega
  refine ⟨h.server.ordered_entered hids, h.server.broadcasts_nodup,
    fun a => ((List.take_sublist _ _).filter _).trans (h.heard_sublist a),
    fun before player after hjobs hleave hc => h.heard_entered hids hjobs hleave hc, ?_⟩
  refine Reach.inv (P := fun s : PlayState Tid Cid Sid => s.client.printed = List.replicate s.chats helloPkt.msg) h ?_
    (fun s act s' hr hP he hok => (playStep_cases (PlayReach.cursorsIn hr) he hok).1.printed hr hP)
  have h0 : (playState₀ : PlayState Tid Cid Sid).chats = 0 := tally_const_zero (ι := Sid) _ [] rfl
  rw [h0]
  rfl

/-- The session of `chatFirst` enters after the first broadcast, and hears the second. -/
def secondChat : List (PlayAct Two Two Two) :=
  chatFirst ++ serverNexts .one 8 ++ .toServer .two .one :: serverNexts .two 9 ++
  .server (.complete .one .one 0 1) :: serverNexts .one 8 ++ .client (.complete .one .one 0 1) :: clientNexts .one 5 ++
  .client (.broadcast .two [.one]) :: clientNexts .two 6 ++ .toServer .two .one :: serverNexts .two 9 ++
  .server (.complete .one .one 0 1) :: serverNexts .one 8 ++ [.toClient .one .one, .toClient .one .one]

theorem clients_hear_second : ∃ s, run playStep PlayOk (playState₀ : PlayState Two Two Two) secondChat = some s ∧
    s.server.broadcasts.map (·.index) = [0, 3] ∧ ((s.heard .one).filter SendBufferRef.isChat).map (·.index) = [3] ∧
    ((s.heard .one).filter SendBufferRef.isChat).Sublist s.server.broadcasts ∧ s.client.printed = [helloPkt.msg] := by
  obtain ⟨s, hrun, hr⟩ := reach_of_run playStep PlayOk (playState₀ : PlayState Two Two Two) secondChat (by decide +kernel)
  have hs : (run playStep PlayOk (playState₀ : PlayState Two Two Two) secondChat).map (fun s =>
      (s.server.broadcasts.map (·.index), ((s.heard .one).filter SendBufferRef.isChat).map (·.index), s.chats)) =
      some ([0, 3], [3], 1) := by decide +kernel
  simp only [hrun, Option.map_some, Option.some.injEq, Prod.mk.injEq] at hs
  obtain ⟨hbroadcasts, hheard, hchats⟩ := hs
  obtain ⟨-, -, hsublist, -, hprinted⟩ := clients_hear hr (by decide)
  rw [hchats] at hprinted
  exact ⟨s, hrun, hbroadcasts, hheard, hsublist .one, hprinted⟩

end Geon
