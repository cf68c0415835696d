import GeonServer.ChatIds
/-!
# ChatOrder — the total order of the chat

The executed jobs are the first of those that entered the room's queue, the `Send` calls are the first of theirs, and
what a session has queued is a part of the calls on it, each time in the same order.  So all sessions hear the
broadcasts in one order, and a broadcast reaches who was in the room (`chat_total_order`).  Both need that the room's
queue does not lose jobs, and the second that players differ in their ids: 2³¹ pending jobs or 2⁶⁴ players are too
many (`chat_passes_players`).
-/
namespace Geon

open Lts Function

variable {Tid Sid : Type}

/-! ## What the order of the chat is -/

/-- `x` was queued before `y`, and handed to `WSASend` before it, where both were. -/
def SendState.Before {Buf : Type*} (s : SendState Tid Buf) (x y : Buf) : Prop :=
  Geon.Before s.pushed x y ∧ Geon.Before s.posted.flatten x y

/-- The broadcast of the buffer was executed and is not running any more. -/
def ChatState.Broadcasted (s : ChatState Tid Sid) (b : SendBufferRef) : Prop :=
  .BroadCast b ∈ (s.jobs.queues ()).executed ∧ ∀ t, ¬ (s.jobs.threads t).runs (.BroadCast b)

/-- `Enter` of the player, and no `Leave` of it since. -/
def Entered (jobs : List (RoomJob Sid)) (player : Player Sid) : Prop :=
  ∃ before after, jobs = before ++ .Enter player :: after ∧ .Leave player ∉ after

/-- **The order of the chat**, for what it means to be a member after some jobs of the room: the sessions have one
order of the chat buffers; the broadcast of a buffer calls `Send` for the members of the jobs before it and nobody
else, for none of them twice, and for each of them if it has come to its end; and it has when nobody has to do with the
room's queue any more. -/
structure ChatOrdered (member : List (RoomJob Sid) → Player Sid → Prop) (s : ChatState Tid Sid) : Prop where
  order : ∀ x y : SendBufferRef, x ≠ y → x.isChat = true → y.isChat = true →
    (∀ a, (s.sessions a).send.Before x y) ∨ ∀ a, (s.sessions a).send.Before y x
  once : ∀ b, (callsOf s.sendCalls b).Nodup
  only : ∀ b before after, s.roomJobs = before ++ .BroadCast b :: after → ∀ player ∈ callsOf s.sendCalls b,
    member before player
  all : ∀ b before after, s.roomJobs = before ++ .BroadCast b :: after → s.Broadcasted b → ∀ player,
    member before player → player ∈ callsOf s.sendCalls b
  quiescent : Quiescent s.jobs () → ∀ b, .BroadCast b ∈ s.roomJobs → s.Broadcasted b

/-! ## One order -/

theorem Before.of_filter {α : Type*} {l : List α} {p : α → Bool} {x y : α} (h : Before (l.filter p) x y)
    (hx : p x = true) (hy : p y = true) : Before l x y := by
  rw [Before, List.pairwise_filter] at h
  refine h.imp (fun hab hxy => ?_)
  obtain ⟨rfl, rfl⟩ := hxy
  exact hab hy hx ⟨rfl, rfl⟩

theorem split_broadcasts [DecidableEq Sid] {jobs : List (RoomJob Sid)} (h : ∀ b, jobs.count (.BroadCast b) ≤ 1)
    {x y : SendBufferRef} (hxy : x ≠ y) : ∃ first second, jobs = first ++ second ∧
      (.BroadCast y ∉ first ∧ .BroadCast x ∉ second ∨ .BroadCast x ∉ first ∧ .BroadCast y ∉ second) := by
  by_cases hx : .BroadCast x ∈ jobs
  · obtain ⟨first, second, rfl⟩ := List.append_of_mem hx
    have hcx := h x
    have hcy := h y
    rw [List.count_append, List.count_cons] at hcx hcy
    rw [if_pos (by simp)] at hcx
    have hx1 : .BroadCast x ∉ first := List.count_eq_zero.1 (by omega)
    have hx2 : .BroadCast x ∉ second := List.count_eq_zero.1 (by omega)
    by_cases hy : .BroadCast y ∈ first
    · refine ⟨first, .BroadCast x :: second, rfl, .inr ⟨hx1, fun hy' => ?_⟩⟩
      have hy1 := List.count_pos_iff.2 hy
      rcases List.mem_cons.1 hy' with heq | hy'
      · cases heq
        exact hxy rfl
      · have hy2 := List.count_pos_iff.2 hy'
        omega
    · refine ⟨first ++ [.BroadCast x], second, by simp, .inl ⟨fun hy' => ?_, hx2⟩⟩
      rcases List.mem_append.1 hy' with hy' | hy'
      · exact hy hy'
      · cases List.mem_singleton.1 hy'
        exact hxy rfl
  · exact ⟨[], jobs, rfl, .inl ⟨List.not_mem_nil, hx⟩⟩

theorem roomCalls_mono {jobs jobs' : List (RoomJob Sid)} (h : jobs <+: jobs') : roomCalls jobs <+: roomCalls jobs' := by
  obtain ⟨more, rfl⟩ := h
  rw [roomCalls, roomCalls, roomCallsFrom_append]
  exact List.prefix_append _ _

theorem callsOf_mono {calls calls' : List (SendBufferRef × Player Sid)} (h : calls <+: calls') (b : SendBufferRef) :
    callsOf calls b <+: callsOf calls' b := (h.filter _).map _

variable [DecidableEq Tid] [DecidableEq Sid] [Fintype Tid] {s : ChatState Tid Sid}

theorem ChatReach.fresh (h : ChatReach s) : FreshOk s.core := by
  refine Reach.inv (P := fun s : ChatState Tid Sid => FreshOk s.core) h freshOk₀ ?_
  intro s act s' _ hP he hok
  exact (chatStep_core he hok.2).fresh hP

theorem ChatReach.ids (h : ChatReach s) : IdsOk s.ids := by
  refine Reach.inv (P := fun s : ChatState Tid Sid => IdsOk s.ids) h idsOk₀ ?_
  intro s act s' _ hP he _
  exact chatStep_ids hP he

theorem ChatReach.once (h : ChatReach s) (b : SendBufferRef) : s.roomJobs.count (.BroadCast b) ≤ 1 :=
  h.fresh.once h.jobs.delivery.2.1 b

theorem ChatReach.executed_first (h : ChatReach s) : (s.jobs.queues ()).executed <+: s.roomJobs := by
  have := (h.jobs.delivery.2.2.executed_first ()).filterMap id
  rwa [List.filterMap_map, List.filterMap_map, Function.id_comp, List.filterMap_some] at this

theorem ChatReach.calls_first (h : ChatReach s) : s.sendCalls <+: roomCalls s.roomJobs := by
  obtain ⟨r, hroom, -⟩ := h.inv
  exact hroom.calls_first.trans (roomCalls_mono h.executed_first)

theorem ChatReach.before (h : ChatReach s) {x y : SendBufferRef} (hx : x.isChat = true) (hy : y.isChat = true)
    (hcalls : Before ((roomCalls s.roomJobs).map Prod.fst) x y) (a : Sid) : (s.sessions a).send.Before x y := by
  obtain ⟨r, -, hqueued⟩ := h.inv
  have hon : Before (callsOn s.sendCalls a) x y :=
    hcalls.sublist ((List.filter_sublist.map _).trans (h.calls_first.sublist.map _))
  have hqueue : Before ((s.sessions a).send.pushed ++ (s.sessions a).send.arriving r) x y :=
    (hon.sublist (hqueued.queued a)).of_filter hx hy
  have hpushed : Before (s.sessions a).send.pushed x y := hqueue.sublist (List.sublist_append_left _ _)
  exact ⟨hpushed, hpushed.sublist (posted_first (h.sends a)).sublist⟩

/-! ## Who hears a broadcast -/

theorem ChatReach.unique (h : ChatReach s) {b : SendBufferRef} {before after : List (RoomJob Sid)}
    (hjobs : s.roomJobs = before ++ .BroadCast b :: after) : .BroadCast b ∉ before ∧ .BroadCast b ∉ after := by
  have := h.once b
  rw [hjobs, List.count_append, List.count_cons_self] at this
  exact ⟨List.count_eq_zero.1 (by omega), List.count_eq_zero.1 (by omega)⟩

theorem ChatReach.calls_of (h : ChatReach s) {b : SendBufferRef} {before after : List (RoomJob Sid)}
    (hjobs : s.roomJobs = before ++ .BroadCast b :: after) :
    callsOf (roomCalls s.roomJobs) b = members (roomAfter before) := by
  obtain ⟨hbefore, hafter⟩ := h.unique hjobs
  rw [hjobs]
  exact calls_of_broadcast hbefore hafter

theorem ChatReach.calls_all (h : ChatReach s) {b : SendBufferRef} {before after : List (RoomJob Sid)}
    (hjobs : s.roomJobs = before ++ .BroadCast b :: after) (hdone : s.Broadcasted b) :
    callsOf s.sendCalls b = members (roomAfter before) := by
  obtain ⟨r, hroom, -⟩ := h.inv
  obtain ⟨more, hmore⟩ := h.executed_first
  obtain ⟨first, second, hsplit⟩ := List.append_of_mem hdone.1
  have hall : s.roomJobs = first ++ .BroadCast b :: (second ++ more) := by
    rw [← hmore, hsplit, List.append_assoc, List.cons_append]
  obtain ⟨hfirst, hrest⟩ := h.unique hall
  have hcalls : callsOf s.sendCalls b = callsOf (roomCalls (s.jobs.queues ()).executed) b := hroom.calls_done hdone.2
  rw [hcalls, hsplit, calls_of_broadcast hfirst (fun hm => hrest (List.mem_append_left _ hm)), ← h.calls_of hall,
    h.calls_of hjobs]

/-- **The order of the chat**, by who is in the room. -/
theorem ChatReach.ordered (h : ChatReach s) : ChatOrdered InRoom s where
  order x y hxy hx hy := by
    obtain ⟨first, second, hjobs, ⟨hyf, hxs⟩ | ⟨hxf, hys⟩⟩ := split_broadcasts h.once hxy
    · exact .inl (h.before hx hy (hjobs ▸ calls_before hyf hxs))
    · exact .inr (h.before hy hx (hjobs ▸ calls_before hxf hys))
  once b := by
    by_cases hb : .BroadCast b ∈ s.roomJobs
    · obtain ⟨before, after, hjobs⟩ := List.append_of_mem hb
      have hfirst := callsOf_mono h.calls_first b
      rw [h.calls_of hjobs] at hfirst
      exact ((nodup_members before).of_map _).sublist hfirst.sublist
    · have hnone : callsOf s.sendCalls b = [] := callsOf_eq_nil _ (fun call hcall hcb =>
        hb (hcb ▸ broadcast_of_call (h.calls_first.subset hcall)))
      rw [hnone]
      exact List.nodup_nil
  only b before after hjobs player hplayer := by
    have hfirst := callsOf_mono h.calls_first b
    rw [h.calls_of hjobs] at hfirst
    exact (mem_members before player).1 (hfirst.subset hplayer)
  all b before after hjobs hdone player hplayer := by
    rw [h.calls_all hjobs hdone]
    exact (mem_members before player).2 hplayer
  quiescent hq b hb := by
    have hall := (h.jobs.executed_all hq).1
    have hjobs : (s.jobs.queues ()).executed = s.roomJobs := by
      have := congrArg (List.filterMap id) hall
      rwa [List.filterMap_map, List.filterMap_map, Function.id_comp, List.filterMap_some] at this
    refine ⟨hjobs ▸ hb, fun t => ?_⟩
    rintro ⟨q, jobs, i, fs, hf, -⟩
    exact hq.1 t (.inJob q jobs i) (by rw [hf]; exact List.mem_cons_self) rfl

/-! ## Players with their own ids -/

theorem ChatReach.job_player (h : ChatReach s) {job : RoomJob Sid} (hjob : job ∈ s.roomJobs) :
    ∀ player ∈ job.player, player ∈ s.created := by
  obtain ⟨⟨t, job'⟩, hentered, heq⟩ := List.mem_filterMap.1 hjob
  have hby : job' ∈ (s.jobs.queues ()).enteredBy t :=
    List.mem_map.2 ⟨(t, job'), List.mem_filter.2 ⟨hentered, decide_eq_true rfl⟩, rfl⟩
  have hcall : job' ∈ (s.jobs.threads t).calls () := by
    rw [← h.jobs.delivery.2.1 t ()]
    exact List.mem_append_left _ hby
  obtain ⟨call, hcalled, rfl⟩ := List.mem_map.1 hcall
  exact h.ids.called t call (List.mem_filter.1 hcalled).1 job heq

/-- **While ids differ, only its own `Leave` takes a player out.** -/
theorem ChatReach.entered (h : ChatReach s) (hids : s.created.length < 2 ^ 64) {before after : List (RoomJob Sid)}
    (hjobs : s.roomJobs = before ++ after) (player : Player Sid) : InRoom before player ↔ Entered before player := by
  have hsame : ∀ {p q : Player Sid}, p ∈ s.created → q ∈ s.created → p.playerId = q.playerId → p = q :=
    fun hp hq => List.inj_on_of_nodup_map (h.ids.nodup hids) hp hq
  constructor
  · rintro ⟨first, rest, rfl, hrest⟩
    exact ⟨first, rest, rfl, fun hleave => hrest _ hleave rfl⟩
  · rintro ⟨first, rest, rfl, hleave⟩
    have hcreated : ∀ {job}, job ∈ first ++ .Enter player :: rest → ∀ p ∈ job.player, p ∈ s.created := fun hjob =>
      h.job_player (hjobs ▸ List.mem_append_left _ hjob)
    have hplayer : player ∈ s.created := hcreated (List.mem_append_right _ List.mem_cons_self) player rfl
    refine ⟨first, rest, rfl, fun job hjob hremoves => ?_⟩
    have hmem : job ∈ first ++ .Enter player :: rest := List.mem_append_right _ (List.mem_cons_of_mem _ hjob)
    cases job with
    | Enter other => exact hremoves.2 (hsame (hcreated hmem other rfl) hplayer hremoves.1)
    | Leave other => exact hleave (hsame (hcreated hmem other rfl) hplayer hremoves ▸ hjob)
    | BroadCast b => exact hremoves

/-- Until 2⁶⁴ players have been made, who is in the room is who has entered and not left. -/
theorem ChatReach.ordered_entered (h : ChatReach s) (hids : s.created.length < 2 ^ 64) : ChatOrdered Entered s := by
  have hord := h.ordered
  refine ⟨hord.order, hord.once, fun b before after hjobs player hplayer => ?_,
    fun b before after hjobs hdone player hplayer => ?_, hord.quiescent⟩
  · exact (h.entered hids hjobs player).1 (hord.only b before after hjobs player hplayer)
  · exact hord.all b before after hjobs hdone player ((h.entered hids hjobs player).2 hplayer)

/-- **The chat is in one total order**, in every interleaving of the handlers in which fewer than 2³¹ jobs are pending
on the room and no `WSASend` fails: all sessions queue the chat buffers and hand them to `WSASend` in one order, and a
broadcast calls `Send` once for everyone who has entered and has not been taken out of the room before it.  Until
2⁶⁴ players have been made nobody but its own `Leave` takes a player out. -/
theorem chat_total_order (h : ChatReach s) :
    ChatOrdered InRoom s ∧ (s.created.length < 2 ^ 64 → ChatOrdered Entered s) :=
  ⟨h.ordered, h.ordered_entered⟩

/-- The thread takes `n` steps, and nothing goes wrong. -/
def nexts (t : Two) (n : Nat) : List (ChatAct Two Two) := List.replicate n (.next t false .success)

/-- Session one enters with its first player and session two with its second; both chat, and thread two runs both
broadcasts. -/
def twoChats : List (ChatAct Two Two) :=
  .handle .one .one (.Handle_C_LOGIN ⟨⟩) :: nexts .one 7 ++ .handle .two .two (.Handle_C_LOGIN ⟨⟩) :: nexts .two 7 ++
  .handle .one .one (.Handle_C_ENTER_GAME ⟨0⟩) :: nexts .one 9 ++
  .handle .two .two (.Handle_C_ENTER_GAME ⟨1⟩) :: nexts .two 9 ++
  .handle .two .two (.Handle_C_CHAT ⟨[104]⟩) :: nexts .two 1 ++
  .handle .one .one (.Handle_C_CHAT ⟨[105]⟩) :: nexts .two 3 ++ nexts .one 1 ++ nexts .two 19

theorem chat_total_order_two : ∃ s, run chatStep ChatOk chatState₀ twoChats = some s ∧
    (s.sessions .one).send.pushed.map (·.index) = [0, 2, 4, 5] ∧
    (s.sessions .two).send.pushed.map (·.index) = [1, 3, 4, 5] ∧
    s.sendCalls.map (fun c => (c.1.index, c.2.playerId)) = [(4, 1), (4, 4), (5, 1), (5, 4)] ∧
    ChatOrdered Entered s := by
  obtain ⟨s, hrun, hr⟩ := reach_of_run chatStep ChatOk (chatState₀ : ChatState Two Two) twoChats (by decide +kernel)
  have hs : (run chatStep ChatOk (chatState₀ : ChatState Two Two) twoChats).map (fun s =>
      ((s.sessions .one).send.pushed.map (·.index), (s.sessions .two).send.pushed.map (·.index),
        s.sendCalls.map (fun c => (c.1.index, c.2.playerId)), s.created.length)) =
      some ([0, 2, 4, 5], [1, 3, 4, 5], [(4, 1), (4, 4), (5, 1), (5, 4)], 4) := by decide +kernel
  simp only [hrun, Option.map_some, Option.some.injEq, Prod.mk.injEq] at hs
  obtain ⟨h0, h1, hcalls, hcreated⟩ := hs
  exact ⟨s, hrun, h0, h1, hcalls, (chat_total_order hr).2 (by rw [hcreated]; decide)⟩

/-! ## Too many jobs for the room -/

/-- One value for each of two threads. -/
def two {α : Type*} (a b : α) : Two → α
  | .one => a
  | .two => b

theorem eq_two {α : Type*} {f : Two → α} {a b : α} (h0 : f .one = a) (h1 : f .two = b) : f = two a b := by
  funext t
  cases t with
  | one => exact h0
  | two => exact h1

section

variable {s : ChatState Two Two} {jq jq' : JobQueue Two (RoomJob Two)} {th0 th1 th1' : JobThread Unit (RoomJob Two)}
  {called : List (Unit × Option (RoomJob Two))} {player : Player Two} {n m : Nat}

/-- Thread one is in no handler, thread two in `Handle_C_ENTER_GAME`; the room is empty. -/
def flooding (s : ChatState Two Two) (jq : JobQueue Two (RoomJob Two)) (th0 th1 : JobThread Unit (RoomJob Two))
    (n : Nat) : ChatState Two Two :=
  { s with
    jobs := ⟨fun _ => jq, [], two th0 th1⟩
    players := .empty
    numBuffers := n
    workers := two ⟨none, .start, .none⟩ ⟨none, .start, .enterGame .one⟩
    sendCalls := [] }

theorem eq_flooding (hq : s.jobs.queues () = jq) (hg : s.jobs.globalQueue = []) (h0 : s.jobs.threads .one = th0)
    (h1 : s.jobs.threads .two = th1) (hp : s.players = .empty) (hn : s.numBuffers = n)
    (hw0 : s.workers .one = ⟨none, .start, .none⟩) (hw1 : s.workers .two = ⟨none, .start, .enterGame .one⟩)
    (hcalls : s.sendCalls = []) : flooding s jq th0 th1 n = s := by
  have hqueues : s.jobs.queues = fun _ => jq := funext (fun _ => hq)
  rw [flooding, ← hqueues, ← hg, ← eq_two h0 h1, ← hp, ← hn, ← eq_two hw0 hw1, ← hcalls]

/-- The broadcast of an empty `C_CHAT`. -/
def emptyChat (n : Nat) : RoomJob Two := .BroadCast ⟨n, .S_CHAT ⟨0, []⟩⟩

def chats (n m : Nat) : List (RoomJob Two) := (List.range' n m).map emptyChat

theorem chats_succ (n m : Nat) : chats n (m + 1) = chats n m ++ [emptyChat (n + m)] := by
  rw [chats, chats, List.range'_1_concat, List.map_append, List.map_singleton]

theorem flooding_chat (hc : jq.jobCount ≠ 0)
    (hr : Reach chatStep NoSendFails chatState₀ (flooding s jq ⟨none, [], called⟩ th1 n)) :
    Reach chatStep NoSendFails chatState₀ (flooding s ⟨jq.jobs ++ [some (emptyChat n)], jq.jobCount + 1,
      jq.entered ++ [(.one, some (emptyChat n))], jq.executed⟩ ⟨none, [], called ++ [((), some (emptyChat n))]⟩ th1
      (n + 1)) := by
  have h1 := hr.next (a := .handle .one .two (.Handle_C_CHAT ⟨[]⟩)) rfl (by exact trivial)
  have h2 := h1.next (a := .next .one false .success) rfl (by intro a ha; cases ha)
  simp only [JobState.set, update_self, update_idem] at h2
  convert h2 using 1
  unfold flooding
  congr 2
  refine (eq_two ?_ ?_).symm
  · rw [update_self]
    exact congrArg (fun fs => JobThread.mk none fs _) (if_neg hc)
  · rfl

theorem flooding_next (hr : Reach chatStep NoSendFails chatState₀ (flooding s jq th0 th1 n))
    {f : JobFrame Unit (RoomJob Two)} (hf : th1.frames = [f]) (hjob : f.isInJob = false)
    (he : jobNext (flooding s jq th0 th1 n).jobs .two false =
      some ((flooding s jq th0 th1 n).jobs.set .two th1' () jq' [])) :
    Reach chatStep NoSendFails chatState₀ (flooding s jq' th0 th1' n) := by
  have hnext : chatStep (flooding s jq th0 th1 n) (.next .two false .success) =
      (jobNext (flooding s jq th0 th1 n).jobs .two false).map
        (fun jobs => { flooding s jq th0 th1 n with jobs := jobs }) := by
    have hframes : ((flooding s jq th0 th1 n).jobs.threads .two).frames = [f] := hf
    have hsending : ((flooding s jq th0 th1 n).workers .two).sending = none := rfl
    simp only [chatStep, ChatState.next, hsending, hframes]
    cases f <;> first | rfl | cases hjob
  rw [he] at hnext
  have h1 := hr.next hnext (by intro a ha; cases ha)
  convert h1 using 1
  unfold flooding
  congr 2
  refine (eq_two ?_ ?_).symm
  · rfl
  · exact update_self ..

/-- A batch whose size is cast to no positive `int32` is taken and not executed. -/
theorem flooding_lost {items : List (Option (RoomJob Two))} {entered : List (Two × Option (RoomJob Two))}
    (hnone : none ∉ items) (hneg : (BitVec.ofNat 32 items.length).toInt ≤ 0)
    (hr : Reach chatStep NoSendFails chatState₀ (flooding s ⟨items, BitVec.ofNat 32 items.length, entered, []⟩ th0
      ⟨none, [.first () false], called⟩ n)) :
    Reach chatStep NoSendFails chatState₀ (flooding s ⟨[], 0, entered, []⟩ th0 ⟨none, [], called⟩ n) := by
  obtain ⟨hjobs, hrest⟩ := popAll_eq items hnone
  have hlen : (popAll items).1.length = items.length := by rw [← List.length_map (f := some), hjobs]
  have hnot : ¬ ((0 : Nat) : Int) < (BitVec.ofNat 32 items.length).toInt := by omega
  have hbatch : Reach chatStep NoSendFails chatState₀ (flooding s
      ⟨(popAll items).2, BitVec.ofNat 32 items.length, entered, []⟩ th0
      ⟨some (), [.batch () (popAll items).1 0], called⟩ n) :=
    flooding_next (flooding_next hr rfl rfl rfl) rfl rfl rfl
  refine flooding_next hbatch rfl rfl ?_
  rw [hrest]
  have hth : (flooding s ⟨[], BitVec.ofNat 32 items.length, entered, []⟩ th0
      ⟨some (), [.batch () (popAll items).1 0], called⟩ n).jobs.threads .two =
      ⟨some (), [.batch () (popAll items).1 0], called⟩ := rfl
  have hjq : (flooding s ⟨[], BitVec.ofNat 32 items.length, entered, []⟩ th0
      ⟨some (), [.batch () (popAll items).1 0], called⟩ n).jobs.queues () =
      ⟨[], BitVec.ofNat 32 items.length, entered, []⟩ := rfl
  simp only [jobNext, hth, hjq, hlen, hnot, if_false, if_true, BitVec.sub_self]
  rfl

/-- After the player's `Enter`, which thread two has pushed and not executed, thread one has pushed `m` broadcasts. -/
def floodedChat (s : ChatState Two Two) (player : Player Two) (n m : Nat) : ChatState Two Two :=
  flooding s ⟨some (.Enter player) :: (chats n m).map some, BitVec.ofNat 32 (m + 1),
    (.two, some (.Enter player)) :: (chats n m).map (fun job => (.one, some job)), []⟩
    ⟨none, [], (chats n m).map (fun job => ((), some job))⟩
    ⟨none, [.first () false], [((), some (.Enter player))]⟩ (n + m)

theorem floodedChat_reach (hr : Reach chatStep NoSendFails chatState₀ (floodedChat s player n 0)) :
    ∀ m, m + 1 < 2 ^ 32 → Reach chatStep NoSendFails chatState₀ (floodedChat s player n m)
  | 0, _ => hr
  | m + 1, h => by
    have hc : BitVec.ofNat 32 (m + 1) ≠ 0 := by
      rw [Ne, ← BitVec.toNat_inj, BitVec.toNat_ofNat, show (0 : BitVec 32).toNat = 0 from rfl]
      omega
    have := flooding_chat (by exact hc) (floodedChat_reach hr m (by omega))
    rw [floodedChat, chats_succ, List.map_append, List.map_append, List.map_append, BitVec.ofNat_add (m + 1) 1]
    exact this

/-- Thread two has executed the room's queue, and none of its jobs. -/
def drained (s : ChatState Two Two) (player : Player Two) (n m : Nat) : ChatState Two Two :=
  flooding s ⟨[], 0, (.two, some (.Enter player)) :: (chats n m).map (fun job => (.one, some job)), []⟩
    ⟨none, [], (chats n m).map (fun job => ((), some job))⟩ ⟨none, [], [((), some (.Enter player))]⟩ (n + m)

theorem drained_reach (hr : Reach chatStep NoSendFails chatState₀ (floodedChat s player n m))
    (hm : (BitVec.ofNat 32 (m + 1)).toInt ≤ 0) : Reach chatStep NoSendFails chatState₀ (drained s player n m) := by
  have hlen : (some (RoomJob.Enter player) :: (chats n m).map some).length = m + 1 := by simp [chats]
  have hnone : none ∉ some (RoomJob.Enter player) :: (chats n m).map some := by simp
  refine flooding_lost hnone (by rwa [hlen]) ?_
  rw [hlen]
  exact hr

def lateChat : List (ChatAct Two Two) := .handle .one .two (.Handle_C_CHAT ⟨[]⟩) :: nexts .one 8

theorem lateChat_lost (hr : Reach chatStep NoSendFails chatState₀ (drained s player n m)) : ∃ s' : ChatState Two Two,
    Reach chatStep NoSendFails chatState₀ s' ∧ s'.created = s.created ∧ s'.sendCalls = [] ∧
    s'.Broadcasted ⟨n + m, .S_CHAT ⟨0, []⟩⟩ ∧
    s'.roomJobs = (.Enter player :: chats n m) ++ .BroadCast ⟨n + m, .S_CHAT ⟨0, []⟩⟩ :: [] := by
  obtain ⟨s', hrun⟩ := Option.isSome_iff_exists.1
    (show (run chatStep NoSendFails (drained s player n m) lateChat).isSome = true from rfl)
  have hs : (run chatStep NoSendFails (drained s player n m) lateChat).map (fun s =>
      (s.created, s.sendCalls, (s.jobs.queues ()).executed, (s.jobs.queues ()).entered, (s.jobs.threads .one).frames,
        (s.jobs.threads .two).frames)) = some (s.created, [], [emptyChat (n + m)], (.two, some (.Enter player)) ::
      (chats n m).map (fun job => (.one, some job)) ++ [(.one, some (emptyChat (n + m)))], [], []) := rfl
  simp only [hrun, Option.map_some, Option.some.injEq, Prod.mk.injEq] at hs
  obtain ⟨hcreated, hcalls, hexecuted, hentered, h0, h1⟩ := hs
  refine ⟨s', .of_run _ _ _ hrun hr, hcreated, hcalls, ⟨?_, fun t => ?_⟩, ?_⟩
  · rw [hexecuted]
    exact List.mem_singleton.2 rfl
  · rintro ⟨q, jobs, i, fs, hf, -⟩
    cases t with
    | one => rw [h0] at hf; cases hf
    | two => rw [h1] at hf; cases hf
  · rw [ChatState.roomJobs, hentered]
    simp [List.filterMap_append, emptyChat, List.filterMap_map]

/-- Session one logs in and enters with its first player, up to the `Execute` of the room's queue. -/
def enterOnly : List (ChatAct Two Two) :=
  .handle .two .one (.Handle_C_LOGIN ⟨⟩) :: nexts .two 7 ++
  .handle .two .one (.Handle_C_ENTER_GAME ⟨0⟩) :: nexts .two 1

def firstPlayer : Player Two := ⟨1, "DB에서긁어온이름1".toUTF8.toList, PLAYER_TYPE_KNIGHT, .one⟩

theorem enterOnly_reach : ∃ s, Reach chatStep NoSendFails chatState₀ (floodedChat s firstPlayer 1 0) ∧
    s.created.length = 2 := by
  obtain ⟨s, hrun, hr⟩ := reach_of_run chatStep NoSendFails (chatState₀ : ChatState Two Two) enterOnly
    (by decide +kernel)
  have hs : (run chatStep NoSendFails (chatState₀ : ChatState Two Two) enterOnly).map (fun s =>
      (s.jobs.queues (), s.jobs.globalQueue, s.jobs.threads .one, s.jobs.threads .two, s.players, s.numBuffers,
        s.workers .one, s.workers .two, s.sendCalls, s.created.length)) =
      some (⟨[some (.Enter firstPlayer)], 1, [(.two, some (.Enter firstPlayer))], []⟩, [], ⟨none, [], []⟩,
        ⟨none, [.first () false], [((), some (.Enter firstPlayer))]⟩, .empty, 1, ⟨none, .start, .none⟩,
        ⟨none, .start, .enterGame .one⟩, [], 2) := rfl
  simp only [hrun, Option.map_some, Option.some.injEq, Prod.mk.injEq] at hs
  obtain ⟨hq, hg, h0, h1, hp, hn, hw0, hw1, hcalls, hcreated⟩ := hs
  exact ⟨s, (eq_flooding hq hg h0 h1 hp hn hw0 hw1 hcalls).symm ▸ hr, hcreated⟩

/-- **From 2³¹ pending jobs on players that have entered are passed by.** -/
theorem flooded_passed : ∃ s : ChatState Two Two, Reach chatStep NoSendFails chatState₀ s ∧
    s.created.length < 2 ^ 64 ∧ ¬ ChatOrdered Entered s := by
  obtain ⟨s, hs, hlen⟩ := enterOnly_reach
  obtain ⟨s', hr, hcreated, hcalls, hdone, hjobs⟩ :=
    lateChat_lost (drained_reach (floodedChat_reach hs (2 ^ 31 - 1) (by decide)) (by decide))
  refine ⟨s', hr, by rw [hcreated, hlen]; decide, fun hord => ?_⟩
  have hentered : Entered (.Enter firstPlayer :: chats 1 (2 ^ 31 - 1)) firstPlayer := by
    refine ⟨[], _, rfl, fun hleave => ?_⟩
    obtain ⟨n, -, hn⟩ := List.mem_map.1 hleave
    cases hn
  have := hord.all _ _ _ hjobs hdone firstPlayer hentered
  rw [hcalls] at this
  cases this

end

/-! ## Too many players for an id -/

section

variable {s s' : ChatState Two Two} {idGenerator : UInt64} {n : Nat} {created players : List (Player Two)}
  {send : SendState Two SendBufferRef}

theorem reach_next (t : Two) (hr : ChatReach s) (he : chatStep s (.next t false .success) = some s')
    (hb : JobsBounded s'.jobs) : ChatReach s' :=
  Reach.next hr he ⟨hb, fun _ _ _ => rfl⟩

def enteredJobs : JobState Two Unit (RoomJob Two) :=
  ⟨fun _ => ⟨[], 0, [(.one, some (.Enter firstPlayer))], [.Enter firstPlayer]⟩, [],
    two ⟨none, [], [((), some (.Enter firstPlayer))]⟩ ⟨none, [], []⟩⟩

theorem enteredJobs_bounded : JobsBounded enteredJobs := by
  show ∀ q, pending enteredJobs q < 2 ^ 31
  decide

/-- The players of a login of session two, and its `S_LOGIN`. -/
def nextPlayer (playerId : UInt64) : Player Two := ⟨playerId, firstPlayer.name, firstPlayer.type, .two⟩
def afterPlayer (playerId : UInt64) : Player Two :=
  ⟨playerId, "DB에서긁어온이름2".toUTF8.toList, PLAYER_TYPE_MAGE, .two⟩
def loginReply (n : Nat) : SendBufferRef := ⟨n, .S_LOGIN ⟨true, loginPlayers.map (fun p => ⟨0, p.1, p.2⟩)⟩⟩

/-- No thread is in a handler, the first player has entered, and session two has logged in some times. -/
def cycling (s : ChatState Two Two) (idGenerator : UInt64) (n : Nat) (created : List (Player Two))
    (send : SendState Two SendBufferRef) (players : List (Player Two)) : ChatState Two Two :=
  { s with
    jobs := enteredJobs
    players := Room.Enter .empty firstPlayer
    sessions := two (s.sessions .one)
      ⟨{ send with connected := true, lock := none, sendRegistered := true, pcs := fun _ => .idle }, players, none,
        false, false⟩
    idGenerator := idGenerator
    numBuffers := n
    created := created
    workers := two ⟨none, .start, .none⟩ ⟨none, .start, .none⟩
    sendCalls := [] }

theorem cycling_login (hr : ChatReach (cycling s idGenerator n created send players)) : ∃ created' send' last,
    ChatReach (cycling s (idGenerator + 1 + 1) (n + 1) created' send'
      (players ++ [nextPlayer idGenerator] ++ [last])) := by
  have hb := enteredJobs_bounded
  have h1 := Reach.next (a := .handle .two .two (.Handle_C_LOGIN ⟨⟩)) hr rfl ⟨by exact hb, by exact trivial⟩
  have h2 := reach_next .two h1 rfl (by exact hb)
  have h3 := reach_next .two h2 rfl (by exact hb)
  have h4 := reach_next .two h3 rfl (by exact hb)
  have h5 := reach_next .two h4 rfl (by exact hb)
  have hpcs : ∀ pc : SendPc SendBufferRef,
      update (update (fun _ : Two => SendPc.idle) .two pc) .two .idle = fun _ => .idle := fun pc => by
    rw [update_idem, update_eq_self (f := fun _ : Two => SendPc.idle)]
  have hfinal : ChatReach (cycling s (idGenerator + 1 + 1) (n + 1)
      (created ++ [nextPlayer idGenerator] ++ [afterPlayer (idGenerator + 1)])
      { send with sendQueue := send.sendQueue ++ [loginReply n], pushed := send.pushed ++ [loginReply n] }
      (players ++ [nextPlayer idGenerator] ++ [afterPlayer (idGenerator + 1)])) := by
    clear h1 h2 h3 h4
    convert h5 using 1
    unfold cycling
    congr 1
    · refine (eq_two ?_ ?_).symm
      · rfl
      · exact congrArg (fun pcs => GameSession.mk (SendState.mk _ _ _ _ _ _ pcs _ _ _) _ _ _ _) (hpcs _)
    · refine (eq_two ?_ ?_).symm <;> rfl
  exact ⟨_, _, _, hfinal⟩

/-- **Login after login**: the first player of the last one has the id its number gives. -/
theorem cycling_run (hr : ChatReach (cycling s 5 n created send [nextPlayer 3, afterPlayer 4])) : ∀ k : Nat,
    ∃ n' created' send' players, ChatReach (cycling s (UInt64.ofNat (2 * k + 5)) n' created' send' players) ∧
      players.length = 2 * k + 2 ∧ players[2 * k]? = some (nextPlayer (UInt64.ofNat (2 * k + 3)))
  | 0 => ⟨n, created, send, _, hr, rfl, rfl⟩
  | k + 1 => by
    obtain ⟨n', created', send', players, hr', hlen, -⟩ := cycling_run hr k
    obtain ⟨created'', send'', last, hlast⟩ := cycling_login hr'
    have hid : UInt64.ofNat (2 * k + 5) + 1 + 1 = UInt64.ofNat (2 * (k + 1) + 5) := by
      rw [show 2 * (k + 1) + 5 = 2 * k + 5 + 1 + 1 by omega, UInt64.ofNat_add (2 * k + 5 + 1) 1,
        UInt64.ofNat_add (2 * k + 5) 1]
      rfl
    refine ⟨_, _, _, _, hid ▸ hlast, by simp [hlen]; omega, ?_⟩
    rw [List.append_assoc, List.getElem?_append_right (by omega), hlen, show 2 * (k + 1) - (2 * k + 2) = 0 by omega]
    rfl

/-- `Handle_C_ENTER_GAME` of session two has called `DoAsync` for a player with the id 1. -/
def reentering (s : ChatState Two Two) (idGenerator : UInt64) (n : Nat) (created : List (Player Two))
    (send : SendState Two SendBufferRef) (players : List (Player Two)) : Option (ChatState Two Two) :=
  (((cycling s idGenerator n created send players).setSession .two
    { (cycling s idGenerator n created send players).sessions .two with
      currentPlayer := some (nextPlayer 1), room := true }).setWorker .two ⟨none, .start, .enterGame .two⟩).doAsync .two
    (.Enter (nextPlayer 1))

theorem cycling_enters {i : UInt64} (hplayer : players[i.toNat]? = some (nextPlayer 1)) :
    chatStep (cycling s idGenerator n created send players) (.handle .two .two (.Handle_C_ENTER_GAME ⟨i⟩)) =
      reentering s idGenerator n created send players := by
  have hbase : (cycling s idGenerator n created send players).atBase .two = true := rfl
  have hat : ((cycling s idGenerator n created send players).sessions .two).players[i.toNat]? =
      some (nextPlayer 1) := hplayer
  simp only [chatStep, hbase, if_true, ChatState.handle, hat]
  rfl

def sameId : List (ChatAct Two Two) :=
  nexts .two 1 ++ .handle .one .one (.Handle_C_CHAT ⟨[]⟩) :: nexts .one 1 ++ nexts .two 12

/-- The second player with the id 1 takes the first one's place. -/
theorem sameId_lost (hr : ChatReach (cycling s idGenerator n created send players)) {i : UInt64}
    (hplayer : players[i.toNat]? = some (nextPlayer 1)) : ∃ s' : ChatState Two Two, ChatReach s' ∧
    s'.sendCalls = [(⟨n, .S_CHAT ⟨0, []⟩⟩, nextPlayer 1)] ∧ s'.Broadcasted ⟨n, .S_CHAT ⟨0, []⟩⟩ ∧
    s'.roomJobs = [.Enter firstPlayer, .Enter (nextPlayer 1)] ++ .BroadCast ⟨n, .S_CHAT ⟨0, []⟩⟩ :: [] := by
  have hstart : run chatStep NoSendFails (cycling s idGenerator n created send players)
      (.handle .two .two (.Handle_C_ENTER_GAME ⟨i⟩) :: sameId) =
      (reentering s idGenerator n created send players).bind (fun s' => run chatStep NoSendFails s' sameId) := by
    rw [run, cycling_enters hplayer]
    rfl
  obtain ⟨s', hrun⟩ := Option.isSome_iff_exists.1 (show ((reentering s idGenerator n created send players).bind
    (fun s' => run chatStep NoSendFails s' sameId)).isSome = true from rfl)
  have hs : ((reentering s idGenerator n created send players).bind
      (fun s' => run chatStep NoSendFails s' sameId)).map (fun s =>
      (s.sendCalls, s.roomJobs, (s.jobs.queues ()).executed, (s.jobs.threads .one).frames,
        (s.jobs.threads .two).frames)) =
      some ([(⟨n, .S_CHAT ⟨0, []⟩⟩, nextPlayer 1)], [.Enter firstPlayer, .Enter (nextPlayer 1), emptyChat n],
        [.Enter firstPlayer, .Enter (nextPlayer 1), emptyChat n], [], []) := rfl
  simp only [hrun, Option.map_some, Option.some.injEq, Prod.mk.injEq] at hs
  obtain ⟨hcalls, hjobs, hexecuted, h0, h1⟩ := hs
  refine ⟨s', hr.of_run _ ?_ (hstart.trans hrun), hcalls, ⟨?_, fun t => ?_⟩, hjobs⟩
  · show pending enteredJobs () + (sameId.length + 1) < 2 ^ 31
    decide
  · rw [hexecuted]
    simp [emptyChat]
  · rintro ⟨q, jobs, i, fs, hf, -⟩
    cases t with
    | one => rw [h0] at hf; cases hf
    | two => rw [h1] at hf; cases hf

/-- Session one logs in and enters with its first player, and session two logs in. -/
def oneIn : List (ChatAct Two Two) :=
  .handle .one .one (.Handle_C_LOGIN ⟨⟩) :: nexts .one 7 ++
  .handle .one .one (.Handle_C_ENTER_GAME ⟨0⟩) :: nexts .one 9 ++
  .handle .two .two (.Handle_C_LOGIN ⟨⟩) :: nexts .two 7

/-- A session in whose sending code nobody is, with a send outstanding. -/
theorem eq_session {g : GameSession Two Two} (hplayers : g.players = players)
    (hsend : (g.send.connected, g.send.lock, g.send.sendRegistered, g.send.pcs .one, g.send.pcs .two) =
      (true, none, true, .idle, .idle))
    (hrest : (g.currentPlayer, g.room, g.disconnected) = (none, false, false)) :
    (⟨{ g.send with connected := true, lock := none, sendRegistered := true, pcs := fun _ => .idle }, players, none,
      false, false⟩ : GameSession Two Two) = g := by
  obtain ⟨⟨connected, lock, sendQueue, sendRegistered, sendEvent, outstanding, pcs, pushed, posted, dropped⟩, _, _⟩ := g
  simp only [Prod.mk.injEq] at hplayers hsend hrest
  obtain ⟨rfl, rfl, rfl, h0, h1⟩ := hsend
  obtain ⟨rfl, rfl, rfl⟩ := hrest
  obtain rfl : pcs = fun _ => .idle := funext fun t => by
    cases t with
    | one => exact h0
    | two => exact h1
  rw [hplayers]

theorem oneIn_reach : ∃ s n created send, ChatReach (cycling s 5 n created send [nextPlayer 3, afterPlayer 4]) := by
  obtain ⟨s, hrun, hr⟩ := reach_of_run chatStep ChatOk (chatState₀ : ChatState Two Two) oneIn (by decide +kernel)
  have hs : (run chatStep ChatOk (chatState₀ : ChatState Two Two) oneIn).map (fun s =>
      ((s.jobs.queues (), s.jobs.globalQueue, s.jobs.threads .one, s.jobs.threads .two), s.players, s.idGenerator,
        (s.workers .one, s.workers .two), s.sendCalls, (s.sessions .two).players, ((s.sessions .two).send.connected,
        (s.sessions .two).send.lock, (s.sessions .two).send.sendRegistered, (s.sessions .two).send.pcs .one,
        (s.sessions .two).send.pcs .two),
        ((s.sessions .two).currentPlayer, (s.sessions .two).room, (s.sessions .two).disconnected))) =
      some ((⟨[], 0, [(.one, some (.Enter firstPlayer))], [.Enter firstPlayer]⟩, [],
        ⟨none, [], [((), some (.Enter firstPlayer))]⟩, ⟨none, [], []⟩), Room.Enter .empty firstPlayer, 5,
        (⟨none, .start, .none⟩, ⟨none, .start, .none⟩), [], [nextPlayer 3, afterPlayer 4],
        (true, none, true, .idle, .idle), (none, false, false)) := rfl
  rw [hrun, Option.map_some, Option.some.injEq] at hs
  obtain ⟨hjobs, hs⟩ := Prod.mk.inj hs
  obtain ⟨hp, hs⟩ := Prod.mk.inj hs
  obtain ⟨hgen, hs⟩ := Prod.mk.inj hs
  obtain ⟨hworkers, hs⟩ := Prod.mk.inj hs
  obtain ⟨hcalls, hs⟩ := Prod.mk.inj hs
  obtain ⟨hplayers, hs⟩ := Prod.mk.inj hs
  obtain ⟨hsend, hrest⟩ := Prod.mk.inj hs
  simp only [Prod.mk.injEq] at hjobs hworkers
  obtain ⟨hq, hg, h0, h1⟩ := hjobs
  have hqueues : s.jobs.queues = fun _ => ⟨[], 0, [(.one, some (.Enter firstPlayer))], [.Enter firstPlayer]⟩ :=
    funext (fun _ => hq)
  have hsessions : two (s.sessions .one) (s.sessions .two) = s.sessions := (eq_two rfl rfl).symm
  have heq : cycling s 5 s.numBuffers s.created (s.sessions .two).send [nextPlayer 3, afterPlayer 4] = s := by
    rw [cycling, eq_session hplayers hsend hrest, hsessions, enteredJobs, ← hqueues, ← eq_two h0 h1, ← hg, ← hp,
      ← hgen, ← eq_two hworkers.1 hworkers.2, ← hcalls]
  exact ⟨s, _, _, _, heq.symm ▸ hr⟩

/-- **From 2⁶⁴ players on a player is passed by** that entered before another one with its id. -/
theorem sameId_passed : ∃ s : ChatState Two Two, ChatReach s ∧ ¬ ChatOrdered Entered s := by
  obtain ⟨s, n, created, send, hs⟩ := oneIn_reach
  obtain ⟨n', created', send', players, hr, -, hplayer⟩ := cycling_run hs (2 ^ 63 - 1)
  obtain ⟨s', hr', hcalls, hdone, hjobs⟩ := sameId_lost (i := 18446744073709551614) hr hplayer
  refine ⟨s', hr', fun hord => ?_⟩
  have hentered : Entered [.Enter firstPlayer, .Enter (nextPlayer 1)] firstPlayer :=
    ⟨[], [.Enter (nextPlayer 1)], rfl, by simp⟩
  have := hord.all _ _ _ hjobs hdone firstPlayer hentered
  rw [hcalls, callsOf, List.filter_cons_of_pos (by simp), List.filter_nil, List.map_singleton,
    List.mem_singleton] at this
  have howner : Two.one = .two := congrArg Player.ownerSession this
  cases howner

end

/-- **Both bounds are needed**: with 2³¹ jobs pending, and with 2⁶⁴ players made, a broadcast passes by a player that
has entered and has not left. -/
theorem chat_passes_players :
    (¬ ∀ s : ChatState Two Two, Reach chatStep NoSendFails chatState₀ s → s.created.length < 2 ^ 64 →
      ChatOrdered Entered s) ∧
    ¬ ∀ s : ChatState Two Two, ChatReach s → ChatOrdered Entered s := by
  constructor
  · intro hall
    obtain ⟨s, hr, hlen, hnot⟩ := flooded_passed
    exact hnot (hall s hr hlen)
  · intro hall
    obtain ⟨s, hr, hnot⟩ := sameId_passed
    exact hnot (hall s hr)

end Geon
