import GeonServer.GameOrder
/-!
# GameClose — no packet after `OnDisconnected`

A receive that was taken before the disconnect may still be in a packet handler when `OnDisconnected` runs on another
thread, and one may be taken after it.  While neither happens, no handler of a session runs once its `OnDisconnected`
has started, what it clears stays empty, and its player enters the room before it leaves.
-/
namespace Geon

open Net Lts Function

section close

variable {Tid Buf : Type} {K : Contents Buf} [Fintype Tid] [DecidableEq Tid] {type : ServiceType} {junk : Nat → BYTE}
  {s : ServiceState Tid K}

/-- The session whose `ProcessRecv` the task is inside, with bytes. -/
def Task.reads {Prog : Type} : Task Prog Buf → Option Nat
  | .processRecv a (.clear numOfBytes) | .processRecv a (.check numOfBytes) => if numOfBytes = 0 then none else some a
  | .processRecv a _ => some a
  | _ => none

/-- The session whose `OnDisconnected` the thread is about to call. -/
def ServiceWorker.partsNext {Prog : Type} : ServiceWorker Prog Buf → Option Nat
  | ⟨.processDisconnect a .clear, none, none⟩ => some a
  | _ => none

/-- `OnDisconnected` of a session is called when no thread is inside its `ProcessRecv` with bytes, and none takes a
receive with bytes after that. -/
def PacketsFirst (s : ServiceState Tid K) (act : ServiceAct Tid Buf) (_ : ServiceState Tid K) : Prop :=
  match act with
  | .next t _ => ∀ a ∈ (s.workers t).partsNext, ∀ u, (s.workers u).task.reads ≠ some a
  | .dequeue _ (.recv a _ bytes) _ => bytes.length ≠ 0 → ¬ s.parting a
  | _ => True

omit [DecidableEq Tid] in
instance (s : ServiceState Tid K) (act : ServiceAct Tid Buf) (s' : ServiceState Tid K) :
    Decidable (PacketsFirst s act s') :=
  match act with
  | .next t _ => inferInstanceAs (Decidable (∀ a ∈ (s.workers t).partsNext, ∀ u, (s.workers u).task.reads ≠ some a))
  | .dequeue _ (.recv _ _ _) _ => inferInstanceAs (Decidable (_ → _))
  | .dequeue _ (.connect _) _ | .dequeue _ (.disconnect _) _ | .dequeue _ (.accept _) _ | .dequeue _ (.send _ _ _) _
  | .startAccept _ | .connect _ | .send _ _ _ | .disconnect _ _ | .broadcast _ _ _ | .destroy _ => .isTrue trivial

def reading : List Place := [.recvClearing false, .recvChecking false, .receiving]

theorem reads_of_place {Prog : Type} {task : Task Prog Buf} {a : Nat} {p : Place} (hp : p ∈ reading)
    (h : task.place = some (a, p)) : task.reads = some a := by
  unfold Task.place at h
  split at h <;> simp only [reduceCtorEq, Option.some.injEq, Prod.mk.injEq] at h <;> obtain ⟨rfl, rfl⟩ := h <;>
    first | (simp [reading] at hp; done) | rfl | (simp [reading] at hp; simp [Task.reads, hp])

theorem put_reading : ∀ r : LifeRule, r ≠ .recvComplete false →
    total r.rule.put.count reading ≤ total r.rule.take.count reading := LifeRule.forall_of_all (by decide)

theorem put_parting : ∀ r : LifeRule, r ≠ .partClear →
    total r.rule.put.count [.parting, .parted] ≤ total r.rule.take.count [.parting, .parted] :=
  LifeRule.forall_of_all (by decide)

/-- **Nobody receives bytes of a session whose `OnDisconnected` has started.** -/
theorem not_reading {contents : K.State}
    (hs : Reach (serviceStep type junk) PacketsFirst (serviceState₀ K contents) s) (a : Nat) :
    0 < total (s.marking a) [.parting, .parted] → total (s.marking a) reading = 0 := by
  refine ServiceReach.life_inv (P := fun m => 0 < total m [.parting, .parted] → total m reading = 0) hs
    (fun _ => rfl) ?_ a
  intro s act s' a r hinv h hok hm hcause hpos
  have hread := hm.fires.total reading
  have hpart := hm.fires.total [.parting, .parted]
  by_cases hc : r = .partClear
  · subst hc
    obtain ⟨t, answer, rfl, hw⟩ := hcause
    have hput := put_reading .partClear (by decide)
    suffices total (s.marking a) reading = 0 by omega
    have hnone : ∀ p ∈ reading, s.marking a p = 0 := fun p hp => by
      have hplace : ∀ p ∈ reading, p.inTask = true ∧ p.inCode = true := by decide
      refine ServiceState.marking_eq_zero (hplace p hp).2 (fun u hu => ?_)
      rw [mem_marks_task (hplace p hp).1] at hu
      exact hok a (by rw [hw]; rfl) u (reads_of_place hp hu)
    simp only [reading, total_cons, total_nil]
    rw [hnone _ (by decide), hnone _ (by decide), hnone _ (by decide)]
  · have hput := put_parting r hc
    have hbefore : 0 < total (s.marking a) [.parting, .parted] := by omega
    have h0 := h hbefore
    by_cases hr : r = .recvComplete false
    · subst hr
      obtain ⟨t, i, bytes, error, rfl, hempty⟩ := hcause
      refine absurd ?_ (hok (fun hlen => by simpa using hempty.2 hlen))
      rw [ServiceState.parting_iff]
      simpa using hbefore
    · have := put_reading r hr
      omega

end close

variable {Tid : Type} {pb : Protobuf} {s s' : ServiceState Tid (gameContents pb)}

/-! ## The game after a close -/

/-- What `OnDisconnected` clears stays empty, and a player leaves the room last. -/
structure CloseInv (s : ServiceState Tid (gameContents pb)) : Prop where
  cleared : ∀ a, Past s a [] → (s.game.game a).players = [] ∧ (s.game.game a).currentPlayer = none
  left : ∀ player, .Leave player ∈ s.game.roomJobs → Past s player.ownerSession [.clear]
  ordered : ∀ player other, player.ownerSession = other.ownerSession →
    Before s.game.roomJobs (.Enter player) (.Leave other)

theorem packet_of_op {t : Tid} {c : Callback} {a : Nat} {op : GameOp} {ops : List GameOp} (h : GameInv s)
    (hin : s.Inside t c a (op :: ops)) (hop : op.ofPacket = true) : c = .onRecvPacket := by
  rcases (h.progs _ _ _ _ hin).head_mem with ⟨-, rfl⟩ | ⟨hc, -⟩ | ⟨-, hmem⟩
  · cases hop
  · exact hc
  · have hnone : ∀ op ∈ GameSession.onDisconnected, op.ofPacket = false := by decide
    rw [hnone op hmem] at hop
    cases hop

theorem leaving_of_op {t : Tid} {c : Callback} {a : Nat} {ops : List GameOp} (h : GameInv s)
    (hin : s.Inside t c a (.leave :: ops)) : c = .onDisconnected ∧ ops = [.clear] := by
  have hhas := h.progs _ _ _ _ hin
  rcases hhas.head_mem with ⟨-, hop⟩ | ⟨-, hop⟩ | ⟨rfl, -⟩
  · cases hop
  · cases hop
  · exact ⟨rfl, by simpa [Callback.Has, GameSession.onDisconnected, List.suffix_cons_iff] using hhas⟩

variable [DecidableEq Tid]

theorem CloseInv.step (h : CloseInv s) (hgame : GameInv s) (hs : GameStep s s')
    (hquiet : ∀ a, s.parting a → ∀ t prog, ¬ s.Inside t .onRecvPacket a prog) : CloseInv s' where
  cleared a hpast := by
    have hlast : [.clear] <:+ GameSession.onDisconnected := by decide
    rcases past_of_step hpast hs hgame hlast with hp | ⟨t, sent, -, hexec⟩
    · have hold := h.cleared a hp
      rcases hs.game with hsame | ⟨t, c, b, op, ops, hin, -, heff⟩
      · rwa [hsame]
      · by_cases hb : a = b
        · subst hb
          have hno : op.ofPacket = true → False := fun hop => by
            obtain rfl := packet_of_op hgame hin hop
            exact hquiet a hp.parting t _ hin
          cases heff with
          | newPlayer | select => exact (hno rfl).elim
          | clear hg => simp [hg]
          | add hg | remove hg | stay _ _ hg | leave _ _ hg | skip _ hg | enter _ _ hg | chat _ _ hg => rwa [hg]
        · rwa [heff.game_of_ne hb]
    · cases GameState.exec_effect hexec with
      | clear hg => simp [hg]
      | stay _ hne => exact absurd (by simp) hne
  left player hmem := by
    rcases hs.game with hsame | ⟨t, c, b, op, ops, hin, hin', heff⟩
    · exact (h.left player (hsame ▸ hmem)).step hs
    · cases heff with
      | leave player' hc _ _ hjobs =>
        rcases List.mem_append.1 (hjobs ▸ hmem) with hmem | hmem
        · exact (h.left player hmem).step hs
        · cases List.mem_singleton.1 hmem
          rw [(hgame.owned b).2 player hc]
          obtain ⟨rfl, rfl⟩ := leaving_of_op hgame hin
          exact .inr ⟨t, _, hin', List.suffix_rfl⟩
      | enter _ _ _ _ hjobs | chat _ _ _ _ hjobs =>
        rcases List.mem_append.1 (hjobs ▸ hmem) with hmem | hmem
        · exact (h.left player hmem).step hs
        · cases List.mem_singleton.1 hmem
      | add _ _ hjobs | remove _ _ hjobs | stay _ _ _ _ hjobs | skip _ _ _ hjobs | clear _ _ hjobs | newPlayer _ _ _ _ hjobs
      | select _ _ _ _ _ hjobs => exact (h.left player (hjobs ▸ hmem)).step hs
  ordered player other howner := by
    have hold := h.ordered player other howner
    rcases hs.game with hsame | ⟨t, c, b, op, ops, hin, -, heff⟩
    · rwa [hsame]
    · cases heff with
      | enter player' hc _ _ hjobs =>
        rw [hjobs]
        refine hold.concat (fun heq hleft => ?_)
        -- the handler that enters the player is of a session that has not left
        obtain rfl : player' = player := by simpa using heq
        obtain rfl := packet_of_op hgame hin rfl
        have hp := (h.left other hleft).parting
        rw [← howner, (hgame.owned b).2 player' hc] at hp
        exact hquiet b hp t _ hin
      | leave _ _ _ _ hjobs | chat _ _ _ _ hjobs =>
        rw [hjobs]
        exact hold.concat (fun heq => by cases heq)
      | add _ _ hjobs | remove _ _ hjobs | stay _ _ _ _ hjobs | skip _ _ _ hjobs | clear _ _ hjobs | newPlayer _ _ _ _ hjobs
      | select _ _ _ _ _ hjobs => rwa [hjobs]

variable [Fintype Tid] {type : ServiceType} {junk : Nat → BYTE}

theorem quiet_after_close (hs : Reach (serviceStep type junk) PacketsFirst
    (serviceState₀ (gameContents pb) gameState₀) s) (a : Nat) (hp : s.parting a) (t : Tid) (prog : List GameOp) :
    ¬ s.Inside t .onRecvPacket a prog := by
  intro hin
  have hpos := marking_of_callback hin
  have hzero := not_reading hs a (by simpa using ServiceState.parting_iff.1 hp)
  simp only [reading, Callback.place, total_cons, total_nil] at hpos hzero
  omega

theorem closeInv_of_reach (hs : Reach (serviceStep type junk) PacketsFirst
    (serviceState₀ (gameContents pb) gameState₀) s) : CloseInv s := by
  refine hs.inv (P := fun s : ServiceState Tid (gameContents pb) => CloseInv s) ⟨?_, ?_, ?_⟩
    (fun s act s' hr h he _ => ?_)
  · exact fun _ _ => ⟨rfl, rfl⟩
  · exact fun _ hm => by cases hm
  · exact fun _ _ _ => List.Pairwise.nil
  · exact h.step (GameReach.inv hr) (gameStep_of_calls (ServiceState.serviceStep_calls (ServiceReach.inv hr).life he))
      (quiet_after_close hr)

/-- **No packet after close**: once `OnDisconnected` of a session has started no handler runs for it, what it has
cleared stays empty, and no player of the session is entered after one of its players has left. -/
theorem no_packet_after_close (hs : Reach (serviceStep type junk) PacketsFirst
    (serviceState₀ (gameContents pb) gameState₀) s) (a : Nat) :
    (s.parting a → ∀ t prog, ¬ s.Inside t .onRecvPacket a prog) ∧
      (Past s a [] → (s.game.game a).players = [] ∧ (s.game.game a).currentPlayer = none) ∧
      ∀ player other, player.ownerSession = a → other.ownerSession = a →
        Before s.game.roomJobs (.Enter player) (.Leave other) := by
  have hclose : CloseInv s := closeInv_of_reach hs
  exact ⟨quiet_after_close hs a, hclose.cleared a, fun player other h1 h2 => hclose.ordered player other (h1.trans h2.symm)⟩

/-- Thread one takes a receive with a login and the choice of the second character, and this many steps. -/
def handles (steps : Nat) : List (ServiceAct Two SendBufferRef) :=
  accepts ++ List.replicate 6 (.next .one .success) ++
    [.dequeue .one (.recv 0 0 [4, 0, 0xe8, 3, 6, 0, 0xea, 3, 8, 1]) none] ++ List.replicate steps (.next .one .success)

/-- The send of the answer to the login fails, and thread two takes the completion of the disconnect as well, and this
many steps. -/
def sendEnds (steps : Nat) : List (ServiceAct Two SendBufferRef) :=
  [.dequeue .two (.send 0 0 0) (some 64)] ++ List.replicate 4 (.next .two .success) ++
    [.dequeue .two (.disconnect 0) none] ++ List.replicate steps (.next .two .success)

/-- While `Handle_C_ENTER_GAME` is about to call `DoAsync`, `OnDisconnected` does. -/
def lateEnter : List (ServiceAct Two SendBufferRef) := handles 13 ++ sendEnds 3 ++ [.next .one .success]

/-- Whether a job enters or leaves, and the session. -/
def RoomJob.moves : RoomJob Nat → Option (Bool × Nat)
  | .Enter player => some (true, player.ownerSession)
  | .Leave player => some (false, player.ownerSession)
  | .BroadCast _ => none

theorem enter_of_moves {job : RoomJob Nat} {a : Nat} (h : job.moves = some (true, a)) :
    ∃ player, job = .Enter player ∧ player.ownerSession = a := by
  cases job with
  | Enter player =>
    simp only [RoomJob.moves, Option.some.injEq, Prod.mk.injEq, true_and] at h
    exact ⟨player, rfl, h⟩
  | Leave | BroadCast => cases h

theorem leave_of_moves {job : RoomJob Nat} {a : Nat} (h : job.moves = some (false, a)) :
    ∃ player, job = .Leave player ∧ player.ownerSession = a := by
  cases job with
  | Leave player =>
    simp only [RoomJob.moves, Option.some.injEq, Prod.mk.injEq, true_and] at h
    exact ⟨player, rfl, h⟩
  | Enter | BroadCast => cases h

/-- **A handler runs during `OnDisconnected`**, and enters the player into the room after it has left. -/
theorem packet_after_close : ∃ s, Reach (serviceStep .Server (fun _ => 0)) Any gameServer₀ s ∧ s.parting 0 ∧
    (∃ prog, s.Inside .one .onRecvPacket 0 prog) ∧ ∃ player other : Player Nat, player.ownerSession = 0 ∧
      other.ownerSession = 0 ∧ s.game.roomJobs = [.Leave other, .Enter player] := by
  obtain ⟨s, hrun, hr⟩ := reach_of_run (serviceStep .Server (fun _ => 0)) Any gameServer₀ lateEnter (by decide)
  have hend : (gameRun Any lateEnter).map (fun s => (decide (s.parting 0), (s.workers .one).task.callback.map
      (fun x => (x.1, x.2.1)), s.game.roomJobs.map RoomJob.moves)) =
      some (true, some (.onRecvPacket, 0), [some (false, 0), some (true, 0)]) := by decide
  rw [gameRun, hrun, Option.map_some, Option.some.injEq, Prod.mk.injEq, Prod.mk.injEq] at hend
  obtain ⟨hparting, hcall, hjobs⟩ := hend
  obtain ⟨⟨c, b, prog⟩, hin, heq⟩ := Option.map_eq_some_iff.1 hcall
  cases heq
  obtain ⟨job, jobs, hlist, hjob, hrest⟩ := List.map_eq_cons_iff.1 hjobs
  obtain ⟨job', jobs', rfl, hjob', hnil⟩ := List.map_eq_cons_iff.1 hrest
  obtain rfl := List.map_eq_nil_iff.1 hnil
  obtain ⟨other, rfl, hother⟩ := leave_of_moves hjob
  obtain ⟨player, rfl, hplayer⟩ := enter_of_moves hjob'
  exact ⟨s, hr, of_decide_eq_true hparting, ⟨prog, hin⟩, player, other, hplayer, hother, hlist⟩

theorem no_packet_after_close_two : ∃ s, gameRun PacketsFirst (handles 20 ++ sendEnds 7) = some s ∧
    (s.session 0).history.parted = 1 ∧ (s.game.game 0).players = [] ∧ ∀ t prog, ¬ s.Inside t .onRecvPacket 0 prog := by
  obtain ⟨s, hrun, hr⟩ := reach_of_run (serviceStep .Server (fun _ => 0)) PacketsFirst gameServer₀
    (handles 20 ++ sendEnds 7) (by decide)
  have hend : (gameRun PacketsFirst (handles 20 ++ sendEnds 7)).map (fun s => (s.session 0).history.parted) =
      some 1 := by decide
  rw [gameRun, hrun, Option.map_some, Option.some.injEq] at hend
  obtain ⟨hquiet, hcleared, -⟩ := no_packet_after_close hr 0
  have hpast : 0 < (s.session 0).history.parted := by
    rw [hend]
    exact Nat.one_pos
  exact ⟨s, hrun, hend, (hcleared (.inl hpast)).1, hquiet (.inl hpast)⟩

end Geon
