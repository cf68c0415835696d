import GeonServer.ChatRun
/-!
# ChatIds — what is new when it is made

A broadcast takes a new buffer, so a buffer is broadcast at most once (`FreshOk`).  A player takes the next id of
`idGenerator`, so different players have different ids until the generator comes round (`IdsOk`), and only players
that were made enter and leave the room.
-/
namespace Geon

open Lts Function

variable {Tid Sid : Type} [DecidableEq Tid] [DecidableEq Sid]

/-! ## The calls of `Push` -/

theorem jobStep_called_push {Job : Type*} {s s' : JobState Tid Unit Job} {t : Tid} {job : Option Job} {pushOnly : Bool}
    (he : jobStep s (.push t () job pushOnly) = some s') : (fun u => (s'.threads u).called) =
      update (fun u => (s.threads u).called) t ((s.threads t).called ++ [((), job)]) := by
  simp only [jobStep] at he
  split at he <;> cases he
  rw [JobState.set_threads, update_map JobThread.called]

theorem jobStep_called {Job : Type*} {s s' : JobState Tid Unit Job} {a : JobAct Tid Unit Job}
    (ha : ∀ t job pushOnly, a ≠ .push t () job pushOnly) (he : jobStep s a = some s') (u : Tid) :
    (s'.threads u).called = (s.threads u).called := by
  have hset : ∀ {t : Tid} {current : Option Unit} {frames : List (JobFrame Unit Job)} {q : Unit}
      {jq : JobQueue Tid Job} {g : List Unit}, s.set t ⟨current, frames, (s.threads t).called⟩ q jq g = s' →
      (s'.threads u).called = (s.threads u).called := by
    rintro t current frames q jq g rfl
    rw [JobState.set_threads]
    by_cases hu : u = t
    · rw [hu, update_self]
    · rw [update_of_ne hu]
  cases a with
  | push t q job pushOnly => exact absurd rfl (ha t job pushOnly)
  | pop t | finish t =>
    simp only [jobStep] at he
    split at he
    · exact hset (Option.some.inj he)
    · cases he
  | next t timeout =>
    simp only [jobStep, jobNext] at he
    split at he
    case h_1 | h_7 => cases he
    case h_2 | h_4 | h_5 => exact hset (Option.some.inj he)
    case h_3 | h_8 => split at he <;> exact hset (Option.some.inj he)
    case h_6 =>
      split at he
      · split at he
        · cases he
        · exact hset (Option.some.inj he)
      · split at he <;> exact hset (Option.some.inj he)

/-! ## Buffers -/

def broadcasts (b : SendBufferRef) (called : List (Unit × Option (RoomJob Sid))) : Nat :=
  (called.map Prod.snd).count (some (.BroadCast b))

theorem broadcasts_concat (b : SendBufferRef) (called : List (Unit × Option (RoomJob Sid))) (job : RoomJob Sid) :
    broadcasts b (called ++ [((), some job)]) = broadcasts b called + if job = .BroadCast b then 1 else 0 := by
  rw [broadcasts, List.map_append, List.count_append, broadcasts]
  by_cases hj : job = .BroadCast b <;> simp [hj]

variable [Fintype Tid]

/-- **A buffer is broadcast at most once**, and not before it is made. -/
def FreshOk (c : ChatCore Tid Sid) : Prop :=
  ∀ b, tally (broadcasts b) (fun t => (c.jobs.threads t).called) ≤ if b.index < c.numBuffers then 1 else 0

omit [DecidableEq Tid] in
theorem freshOk₀ : FreshOk (chatState₀ : ChatState Tid Sid).core := fun b => by
  rw [show (fun t => ((chatState₀ : ChatState Tid Sid).core.jobs.threads t).called) = fun _ => [] from rfl,
    tally_const_zero (broadcasts b) [] rfl]
  exact Nat.zero_le _

variable {c c' : ChatCore Tid Sid}

omit [DecidableEq Tid] in
theorem FreshOk.kept (h : FreshOk c) (hcalled : ∀ t, (c'.jobs.threads t).called = (c.jobs.threads t).called)
    (hn : c.numBuffers ≤ c'.numBuffers) : FreshOk c' := fun b => by
  rw [funext hcalled]
  refine (h b).trans ?_
  split
  · rw [if_pos (by omega)]
  · exact Nat.zero_le _

theorem CoreStep.fresh (hstep : CoreStep c c') (h : FreshOk c) : FreshOk c' := by
  cases hstep with
  | @push t job jobs n hframes hsending he hn hnew =>
    intro b
    have hcount := tally_update (broadcasts b) (fun u => (c.jobs.threads u).called) t
      ((c.jobs.threads t).called ++ [((), some job)])
    have hb := h b
    rw [broadcasts_concat] at hcount
    simp only [jobStep_called_push he]
    by_cases hj : job = .BroadCast b
    · obtain ⟨hindex, hlt⟩ := hnew b hj
      rw [if_neg (by omega)] at hb
      rw [if_pos hj] at hcount
      rw [if_pos (by omega)]
      omega
    · rw [if_neg hj] at hcount
      split at hb
      · rw [if_pos (by omega)]
        omega
      · exact le_trans (by omega) (Nat.zero_le _)
  | pop he => exact h.kept (jobStep_called (fun _ _ _ h => by cases h) he) le_rfl
  | job _ _ he => exact h.kept (jobStep_called (fun _ _ _ h => by cases h) he) le_rfl
  | finish _ _ he => exact h.kept (jobStep_called (fun _ _ _ h => by cases h) he) le_rfl
  | call => exact h.kept (fun _ => rfl) (Nat.le_succ _)
  | outside | send | complete | disconnect | apply | loop | broadcast | last => exact h.kept (fun _ => rfl) le_rfl

/-- The jobs of the room in the order they entered its queue. -/
def ChatState.roomJobs (s : ChatState Tid Sid) : List (RoomJob Sid) :=
  (s.jobs.queues ()).entered.filterMap Prod.snd

omit [DecidableEq Sid] in
theorem count_entered {α : Type*} [BEq α] (x : α) : ∀ entered : List (Tid × α), (entered.map Prod.snd).count x =
    tally (fun t => ((entered.filter (fun e => decide (e.1 = t))).map Prod.snd).count x) (fun t : Tid => t)
  | [] => by simp [tally]
  | (u, y) :: entered => by
    have ih := count_entered x entered
    have hone : ∀ t, (((((u, y) :: entered).filter (fun e => decide (e.1 = t))).map Prod.snd).count x) =
        ((entered.filter (fun e => decide (e.1 = t))).map Prod.snd).count x + if u = t then [y].count x else 0 := by
      intro t
      by_cases ht : u = t <;> simp [ht, List.count_cons]
    simp only [tally, hone, Finset.sum_add_distrib, Finset.sum_ite_eq, Finset.mem_univ, if_true] at ih ⊢
    rw [← ih, List.map_cons, List.count_cons, List.count_singleton]

theorem FreshOk.once {s : ChatState Tid Sid} (h : FreshOk s.core) (hcalls : CallsEntered s.jobs) (b : SendBufferRef) :
    s.roomJobs.count (.BroadCast b) ≤ 1 := by
  have hle : tally (fun t => ((s.jobs.queues ()).enteredBy t).count (some (RoomJob.BroadCast b))) (fun t => t) ≤
      tally (broadcasts b) (fun t => (s.jobs.threads t).called) := by
    refine Finset.sum_le_sum (fun t _ => ?_)
    have hall : (s.jobs.threads t).calls () = (s.jobs.threads t).called.map Prod.snd := by
      rw [JobThread.calls, List.filter_eq_self.2 (by simp)]
    rw [broadcasts, ← hall, ← hcalls t ()]
    exact (List.prefix_append _ _).sublist.count_le _
  have hentered : s.roomJobs.count (.BroadCast b) =
      ((s.jobs.queues ()).entered.map Prod.snd).count (some (.BroadCast b)) := by
    rw [ChatState.roomJobs, List.count_filterMap, List.count, List.countP_map]
    rfl
  have hb := h b
  rw [hentered, count_entered]
  exact hle.trans (hb.trans (by split <;> omega))

/-! ## Players -/

/-- What the ids of the players depend on. -/
structure ChatIds (Tid Sid : Type) where
  idGenerator : UInt64
  created : List (Player Sid)
  players : Sid → List (Player Sid)
  currentPlayer : Sid → Option (Player Sid)
  called : Tid → List (Unit × Option (RoomJob Sid))

def ChatState.ids (s : ChatState Tid Sid) : ChatIds Tid Sid :=
  ⟨s.idGenerator, s.created, fun a => (s.sessions a).players, fun a => (s.sessions a).currentPlayer,
    fun t => (s.jobs.threads t).called⟩

def RoomJob.player : RoomJob Sid → Option (Player Sid)
  | .Enter player | .Leave player => some player
  | .BroadCast _ => none

/-- **The players have the ids 1, 2, … in the order they were made**, as far as an id counts, and who enters or leaves
was made. -/
structure IdsOk (ids : ChatIds Tid Sid) : Prop where
  generator : ids.idGenerator = UInt64.ofNat (ids.created.length + 1)
  created : ids.created.map (·.playerId) = (List.range ids.created.length).map (fun k => UInt64.ofNat (k + 1))
  players : ∀ a, ∀ player ∈ ids.players a, player ∈ ids.created
  current : ∀ a, ∀ player ∈ ids.currentPlayer a, player ∈ ids.created
  called : ∀ t, ∀ call ∈ ids.called t, ∀ job ∈ call.2, ∀ player ∈ job.player, player ∈ ids.created

omit [DecidableEq Tid] [DecidableEq Sid] [Fintype Tid] in
theorem idsOk₀ : IdsOk (chatState₀ : ChatState Tid Sid).ids where
  generator := rfl
  created := rfl
  players _ _ h := by cases h
  current _ _ h := by cases h
  called _ _ h := by cases h

omit [DecidableEq Tid] [DecidableEq Sid] [Fintype Tid] in
/-- **Ids differ** until `idGenerator` comes round. -/
theorem IdsOk.nodup {ids : ChatIds Tid Sid} (h : IdsOk ids) (hlen : ids.created.length < 2 ^ 64) :
    (ids.created.map (·.playerId)).Nodup := by
  rw [h.created]
  refine (List.nodup_range).map_on (fun i hi j hj hij => ?_)
  rw [List.mem_range] at hi hj
  have := congrArg UInt64.toNat hij
  rw [UInt64.toNat_ofNat', UInt64.toNat_ofNat', Nat.mod_eq_of_lt (by omega), Nat.mod_eq_of_lt (by omega)] at this
  omega

omit [Fintype Tid]

omit [DecidableEq Tid] in
theorem ids_setSession (s : ChatState Tid Sid) (a : Sid) (session : GameSession Tid Sid) :
    (s.setSession a session).ids = { s.ids with
      players := update s.ids.players a session.players,
      currentPlayer := update s.ids.currentPlayer a session.currentPlayer } := by
  simp only [ChatState.ids, ChatState.setSession, update_map GameSession.players, update_map GameSession.currentPlayer]

theorem ids_setSend (s : ChatState Tid Sid) (t : Tid) (a : Sid) (send : SendState Tid SendBufferRef) :
    (s.setSend t a send).ids = s.ids := by
  have : (s.setSend t a send).ids = (s.setSession a { s.sessions a with send := send }).ids := rfl
  rw [this, ids_setSession]
  simp only [ChatState.ids, update_eq_self]

theorem callSend_ids {s s' : ChatState Tid Sid} {t : Tid} {a : Sid} {b : SendBufferRef}
    (he : s.callSend t a b = some s') : s'.ids = s.ids := by
  obtain ⟨send, -, rfl⟩ := Option.map_eq_some_iff.1 he
  exact ids_setSend ..

omit [DecidableEq Sid] in
theorem doAsync_ids {s s' : ChatState Tid Sid} {t : Tid} {job : RoomJob Sid} (he : s.doAsync t job = some s') :
    s'.ids = { s.ids with called := update s.ids.called t (s.ids.called t ++ [((), some job)]) } := by
  obtain ⟨jobs, hjobs, rfl⟩ := Option.map_eq_some_iff.1 he
  simp only [ChatState.ids, jobStep_called_push hjobs]

variable {ids : ChatIds Tid Sid}

omit [DecidableEq Sid] in
theorem IdsOk.push (h : IdsOk ids) {t : Tid} {job : RoomJob Sid} (hjob : ∀ player ∈ job.player, player ∈ ids.created) :
    IdsOk { ids with called := update ids.called t (ids.called t ++ [((), some job)]) } := by
  refine ⟨h.generator, h.created, h.players, h.current, fun u call hcall => ?_⟩
  have hcall : call ∈ update ids.called t (ids.called t ++ [((), some job)]) u := hcall
  by_cases hu : u = t
  · subst hu
    rw [update_self, List.mem_append, List.mem_singleton] at hcall
    rcases hcall with hcall | rfl
    · exact h.called u call hcall
    · intro job' hj player hp
      cases hj
      exact hjob player hp
  · rw [update_of_ne hu] at hcall
    exact h.called u call hcall

omit [DecidableEq Tid] in
theorem IdsOk.session {s : ChatState Tid Sid} (h : IdsOk s.ids) {a : Sid} {session : GameSession Tid Sid}
    (hplayers : ∀ player ∈ session.players, player ∈ s.created)
    (hcurrent : ∀ player ∈ session.currentPlayer, player ∈ s.created) : IdsOk (s.setSession a session).ids := by
  rw [ids_setSession]
  refine ⟨h.generator, h.created, fun b => ?_, fun b => ?_, h.called⟩
  · show ∀ player ∈ update s.ids.players a session.players b, player ∈ s.created
    by_cases hb : b = a
    · rw [hb, update_self]
      exact hplayers
    · rw [update_of_ne hb]
      exact h.players b
  · show ∀ player ∈ update s.ids.currentPlayer a session.currentPlayer b, player ∈ s.created
    by_cases hb : b = a
    · rw [hb, update_self]
      exact hcurrent
    · rw [update_of_ne hb]
      exact h.current b

omit [DecidableEq Tid] [DecidableEq Sid] in
theorem IdsOk.create (h : IdsOk ids) {player : Player Sid} (hid : player.playerId = ids.idGenerator) :
    IdsOk { ids with idGenerator := ids.idGenerator + 1, created := ids.created ++ [player] } := by
  have hmore : ∀ {p}, p ∈ ids.created → p ∈ ids.created ++ [player] := fun hp => List.mem_append_left _ hp
  refine ⟨?_, ?_, fun a p hp => hmore (h.players a p hp), fun a p hp => hmore (h.current a p hp),
    fun t call hcall job hjob p hp => hmore (h.called t call hcall job hjob p hp)⟩
  · show ids.idGenerator + 1 = _
    rw [h.generator, List.length_append, List.length_singleton, UInt64.ofNat_add (ids.created.length + 1) 1]
    rfl
  · show (ids.created ++ [player]).map _ = _
    rw [List.map_append, h.created, List.length_append, List.length_singleton, List.range_succ, List.map_append,
      List.map_singleton, List.map_singleton, hid, h.generator]

omit [DecidableEq Sid] in
theorem jobs_ids (s : ChatState Tid Sid) {a : JobAct Tid Unit (RoomJob Sid)} {jobs : JobState Tid Unit (RoomJob Sid)}
    (he : jobStep s.jobs a = some jobs) (ha : ∀ t job pushOnly, a ≠ .push t () job pushOnly) :
    ChatState.ids { s with jobs := jobs } = s.ids := by
  simp only [ChatState.ids, funext (jobStep_called ha he)]

theorem makeAndSend_ids {s s' : ChatState Tid Sid} {t : Tid} {a : Sid} {pkt : ServerPacket}
    (he : s.makeAndSend t a pkt = some s') : s'.ids = s.ids := by
  exact callSend_ids (s := { s with numBuffers := s.numBuffers + 1 }) he

theorem runJob_ids {s s' : ChatState Tid Sid} {t : Tid} {job : RoomJob Sid} (he : s.runJob t job = some s') :
    s'.ids = s.ids := by
  unfold ChatState.runJob at he
  split at he
  case h_1 | h_2 | h_3 => cases he; rfl
  case h_4 =>
    split at he
    · cases he; rfl
    · obtain ⟨send, -, rfl⟩ := Option.map_eq_some_iff.1 he
      exact ids_setSend ..
  case h_5 => cases he
  case h_6 =>
    obtain ⟨jobs, hjobs, rfl⟩ := Option.map_eq_some_iff.1 he
    exact jobs_ids s hjobs (fun _ _ _ h => by cases h)

theorem handle_ids {s s' : ChatState Tid Sid} {t : Tid} {a : Sid} {call : ClientPacketHandler.Call} (h : IdsOk s.ids)
    (he : s.handle t a call = some s') : IdsOk s'.ids := by
  cases call with
  | Handle_INVALID => cases he; exact h
  | Handle_C_LOGIN pkt => cases he; exact h
  | Handle_C_ENTER_GAME pkt =>
    simp only [ChatState.handle] at he
    split at he
    · cases he
    · rename_i player hplayer
      have hmem : player ∈ s.ids.created := h.players a player (List.mem_of_getElem? hplayer)
      have hcurrent : ∀ p ∈ some player, p ∈ s.ids.created := fun p hp => by
        cases hp
        exact hmem
      have hsession : IdsOk (s.setSession a { s.sessions a with currentPlayer := some player, room := true }).ids :=
        h.session (h.players a) hcurrent
      rw [doAsync_ids he]
      exact IdsOk.push hsession hcurrent
  | Handle_C_CHAT pkt =>
    rw [doAsync_ids he]
    exact h.push (fun p hp => by cases hp)

theorem onDisconnected_ids {s s' : ChatState Tid Sid} {t : Tid} {a : Sid} (h : IdsOk s.ids)
    (he : s.onDisconnected t a = some s') : IdsOk s'.ids := by
  have hsession : IdsOk (s.setSession a { s.sessions a with disconnected := true }).ids :=
    h.session (h.players a) (h.current a)
  simp only [ChatState.onDisconnected] at he
  split at he
  · rename_i player hcurrent hroom
    rw [doAsync_ids he]
    refine IdsOk.push hsession (fun p hp => ?_)
    cases hp
    exact h.current a player hcurrent
  · cases he
    exact hsession

theorem handlerNext_ids {s s' : ChatState Tid Sid} {t : Tid} (h : IdsOk s.ids) (he : s.handlerNext t = some s') :
    IdsOk s'.ids := by
  simp only [ChatState.handlerNext] at he
  split at he
  · cases he
  · split at he
    · cases he
      rename_i a loginPkt hhandler x name type hname
      have hcreate : IdsOk (ChatState.ids { s with
          idGenerator := s.idGenerator + 1, created := s.created ++ [⟨s.idGenerator, name, type, a⟩] }) :=
        h.create rfl
      refine hcreate.session (fun p hp => ?_) (hcreate.current a)
      rcases List.mem_append.1 hp with hp | hp
      · exact hcreate.players a p hp
      · exact List.mem_append_right _ hp
    · rw [makeAndSend_ids he]
      exact h
  · split at he
    · cases he
    · rw [makeAndSend_ids he]
      exact h
  · cases he
    rename_i a hhandler
    have hsession : IdsOk (s.setSession a { s.sessions a with currentPlayer := none, players := [] }).ids :=
      h.session (fun p hp => by cases hp) (fun p hp => by cases hp)
    exact hsession

/-- **The step lemma of the ids.** -/
theorem chatStep_ids {s s' : ChatState Tid Sid} {act : ChatAct Tid Sid} (h : IdsOk s.ids)
    (he : chatStep s act = some s') : IdsOk s'.ids := by
  cases act with
  | handle t a call =>
    simp only [chatStep] at he
    split at he
    · exact handle_ids h he
    · cases he
  | onDisconnected t a =>
    simp only [chatStep] at he
    split at he
    · exact onDisconnected_ids h he
    · cases he
  | pop t =>
    simp only [chatStep] at he
    split at he
    · obtain ⟨jobs, hjobs, rfl⟩ := Option.map_eq_some_iff.1 he
      rw [jobs_ids s hjobs (fun _ _ _ h => by cases h)]
      exact h
    · cases he
  | complete t a i numOfBytes =>
    simp only [chatStep] at he
    split at he
    · obtain ⟨send, -, rfl⟩ := Option.map_eq_some_iff.1 he
      rw [ids_setSend]
      exact h
    · cases he
  | disconnect a =>
    simp only [chatStep] at he
    obtain ⟨send, -, rfl⟩ := Option.map_eq_some_iff.1 he
    exact h.session (h.players a) (h.current a)
  | next t timeout wsaSend =>
    simp only [chatStep, ChatState.next] at he
    split at he
    · obtain ⟨send, -, rfl⟩ := Option.map_eq_some_iff.1 he
      rw [ids_setSend]
      exact h
    · split at he
      · exact handlerNext_ids h he
      · split at he
        · cases he
        · rw [runJob_ids he]
          exact h
      · obtain ⟨jobs, hjobs, rfl⟩ := Option.map_eq_some_iff.1 he
        rw [jobs_ids s hjobs (fun _ _ _ h => by cases h)]
        exact h

end Geon
