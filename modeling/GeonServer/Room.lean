import GeonServer.OrdMap
import GeonServer.Packet
/-!
# Room — players that enter, leave and hear what is said

`Room` of Server/Room.cpp as what its jobs do to `_players`, and as the `Session::Send` calls they make.  Run one after
another the jobs have a plain meaning: `_players` is who entered and has not left (`mem_roomAfter`), and a broadcast
calls `Send` once for each of them (`calls_of_broadcast`).
-/
namespace Geon

/-- A `SendBufferRef` as `MakeSendBuffer` returns it, named by the order of these calls, and the packet it was made
from. -/
structure SendBufferRef where
  index : Nat
  pkt : ServerPacket
  deriving DecidableEq, Repr

def SendBufferRef.isChat (sendBuffer : SendBufferRef) : Bool :=
  match sendBuffer.pkt with
  | .S_CHAT _ => true
  | _ => false

/-- `Player` of Server/Player.h; `Sid` names the sessions. -/
structure Player (Sid : Type*) where
  playerId : UInt64
  name : List BYTE
  type : Int32
  ownerSession : Sid
  deriving DecidableEq, Repr

/-- The calls that `DoAsync` packs into jobs. -/
inductive RoomJob (Sid : Type*)
  | Enter (player : Player Sid)
  | Leave (player : Player Sid)
  | BroadCast (sendBuffer : SendBufferRef)
  deriving DecidableEq, Repr

variable {Sid : Type*}

abbrev RoomPlayers (Sid : Type*) := OrdMap Nat (Player Sid)

def Room.Enter (players : RoomPlayers Sid) (player : Player Sid) : RoomPlayers Sid :=
  players.insert player.playerId.toNat player

def Room.Leave (players : RoomPlayers Sid) (player : Player Sid) : RoomPlayers Sid :=
  players.erase player.playerId.toNat

/-! ## Jobs one after another -/

def RoomJob.apply (players : RoomPlayers Sid) : RoomJob Sid → RoomPlayers Sid
  | .Enter player => Room.Enter players player
  | .Leave player => Room.Leave players player
  | .BroadCast _ => players

/-- The `Send` calls of a job: the buffer, and the player whose session it is called on. -/
def RoomJob.calls (players : RoomPlayers Sid) : RoomJob Sid → List (SendBufferRef × Player Sid)
  | .BroadCast sendBuffer => players.entries.map (fun e => (sendBuffer, e.2))
  | _ => []

def roomAfter (jobs : List (RoomJob Sid)) : RoomPlayers Sid := jobs.foldl RoomJob.apply OrdMap.empty

/-- The `Send` calls of jobs that start with these players. -/
def roomCallsFrom : RoomPlayers Sid → List (RoomJob Sid) → List (SendBufferRef × Player Sid)
  | _, [] => []
  | players, job :: jobs => job.calls players ++ roomCallsFrom (job.apply players) jobs

/-- The `Send` calls of the jobs of a room. -/
def roomCalls (jobs : List (RoomJob Sid)) : List (SendBufferRef × Player Sid) := roomCallsFrom OrdMap.empty jobs

/-- The job takes the player out of the room: it leaves, or another one with its id enters. -/
def RoomJob.removes (player : Player Sid) : RoomJob Sid → Prop
  | .Enter other => other.playerId = player.playerId ∧ other ≠ player
  | .Leave other => other.playerId = player.playerId
  | .BroadCast _ => False

/-- The player has entered and nothing has taken it out since. -/
def InRoom (jobs : List (RoomJob Sid)) (player : Player Sid) : Prop :=
  ∃ before after, jobs = before ++ .Enter player :: after ∧ ∀ job ∈ after, ¬ job.removes player

theorem roomAfter_concat (jobs : List (RoomJob Sid)) (job : RoomJob Sid) :
    roomAfter (jobs ++ [job]) = job.apply (roomAfter jobs) := by
  rw [roomAfter, List.foldl_append]
  rfl

theorem roomCallsFrom_append : ∀ (jobs : List (RoomJob Sid)) (players : RoomPlayers Sid) (more : List (RoomJob Sid)),
    roomCallsFrom players (jobs ++ more) =
      roomCallsFrom players jobs ++ roomCallsFrom (jobs.foldl RoomJob.apply players) more
  | [], _, _ => rfl
  | job :: jobs, players, more => by
    rw [List.cons_append, roomCallsFrom, roomCallsFrom_append jobs, ← List.append_assoc]
    rfl

theorem roomCalls_concat (jobs : List (RoomJob Sid)) (job : RoomJob Sid) :
    roomCalls (jobs ++ [job]) = roomCalls jobs ++ job.calls (roomAfter jobs) := by
  rw [roomCalls, roomCallsFrom_append, roomCallsFrom, roomCallsFrom, List.append_nil]
  rfl

theorem key_roomAfter (jobs : List (RoomJob Sid)) : ∀ e ∈ (roomAfter jobs).entries, e.1 = e.2.playerId.toNat := by
  induction jobs using List.reverseRecOn with
  | nil => intro e he; cases he
  | append_singleton jobs job ih =>
    rw [roomAfter_concat]
    intro e he
    cases job with
    | Enter player =>
      rcases (OrdMap.mem_insert _ _ _ e).1 he with rfl | ⟨he, -⟩
      · rfl
      · exact ih e he
    | Leave player => exact ih e ((OrdMap.mem_erase _ _ e).1 he).1
    | BroadCast sendBuffer => exact ih e he

theorem inRoom_concat (jobs : List (RoomJob Sid)) (job : RoomJob Sid) (player : Player Sid) :
    InRoom (jobs ++ [job]) player ↔ job = .Enter player ∨ InRoom jobs player ∧ ¬ job.removes player := by
  constructor
  · rintro ⟨before, after, heq, hafter⟩
    rcases List.eq_nil_or_concat after with rfl | ⟨after, last, rfl⟩
    · exact .inl (List.append_inj_right' heq rfl |> List.cons.inj |>.1)
    · rw [List.concat_eq_append, ← List.cons_append, ← List.append_assoc] at heq
      obtain ⟨hjobs, hlast⟩ := List.append_inj' heq rfl
      cases hlast
      exact .inr ⟨⟨before, after, hjobs, fun x hx => hafter x (by simp [hx])⟩, hafter job (by simp)⟩
  · rintro (rfl | ⟨⟨before, after, rfl, hafter⟩, hjob⟩)
    · exact ⟨jobs, [], rfl, by simp⟩
    · refine ⟨before, after ++ [job], by simp, fun x hx => ?_⟩
      rcases List.mem_append.1 hx with hx | hx
      · exact hafter x hx
      · rwa [List.mem_singleton.1 hx]

/-- **`_players` is who has entered and has not been taken out since.** -/
theorem mem_roomAfter (jobs : List (RoomJob Sid)) (player : Player Sid) :
    (player.playerId.toNat, player) ∈ (roomAfter jobs).entries ↔ InRoom jobs player := by
  induction jobs using List.reverseRecOn with
  | nil =>
    constructor
    · intro h; cases h
    · rintro ⟨before, after, heq, -⟩
      cases before <;> cases heq
  | append_singleton jobs job ih =>
    rw [roomAfter_concat, inRoom_concat, ← ih]
    cases job with
    | Enter other =>
      rw [RoomJob.apply, Room.Enter, OrdMap.mem_insert, Prod.mk.injEq, UInt64.toNat_inj]
      simp only [RoomJob.Enter.injEq, RoomJob.removes, not_and, ne_eq, not_not, UInt64.toNat_inj]
      constructor
      · rintro (⟨-, rfl⟩ | ⟨h, hne⟩)
        · exact .inl rfl
        · exact .inr ⟨h, fun heq => absurd heq.symm hne⟩
      · rintro (rfl | ⟨h, hsame⟩)
        · exact .inl ⟨rfl, rfl⟩
        · by_cases hid : player.playerId = other.playerId
          · exact .inl ⟨hid, (hsame hid.symm).symm⟩
          · exact .inr ⟨h, hid⟩
    | Leave other =>
      rw [RoomJob.apply, Room.Leave, OrdMap.mem_erase]
      simp only [reduceCtorEq, false_or, RoomJob.removes, ne_eq, UInt64.toNat_inj]
      exact and_congr_right (fun _ => not_congr eq_comm)
    | BroadCast sendBuffer => simp [RoomJob.apply, RoomJob.removes]

/-! ## The calls of a broadcast -/

theorem broadcast_of_call {players : RoomPlayers Sid} : ∀ {jobs : List (RoomJob Sid)}
    {c : SendBufferRef × Player Sid}, c ∈ roomCallsFrom players jobs → .BroadCast c.1 ∈ jobs
  | [], _, h => by cases h
  | job :: jobs, c, h => by
    rcases List.mem_append.1 h with h | h
    · cases job with
      | BroadCast sendBuffer =>
        obtain ⟨e, -, rfl⟩ := List.mem_map.1 h
        exact List.mem_cons_self
      | Enter | Leave => cases h
    · exact List.mem_cons_of_mem _ (broadcast_of_call h)

/-- The players for whom the calls with this buffer are. -/
def callsOf (calls : List (SendBufferRef × Player Sid)) (sendBuffer : SendBufferRef) : List (Player Sid) :=
  (calls.filter (fun c => c.1 = sendBuffer)).map Prod.snd

theorem callsOf_append (calls more : List (SendBufferRef × Player Sid)) (sendBuffer : SendBufferRef) :
    callsOf (calls ++ more) sendBuffer = callsOf calls sendBuffer ++ callsOf more sendBuffer := by
  rw [callsOf, List.filter_append, List.map_append]
  rfl

theorem callsOf_eq_nil (calls : List (SendBufferRef × Player Sid)) {sendBuffer : SendBufferRef}
    (h : ∀ c ∈ calls, c.1 ≠ sendBuffer) : callsOf calls sendBuffer = [] := by
  rw [callsOf, List.filter_eq_nil_iff.2 (by simpa using h)]
  rfl

def members (players : RoomPlayers Sid) : List (Player Sid) := players.entries.map Prod.snd

theorem callsOf_calls (players : RoomPlayers Sid) (sendBuffer : SendBufferRef) :
    callsOf ((RoomJob.BroadCast sendBuffer).calls players) sendBuffer = members players := by
  rw [callsOf, List.filter_eq_self.2, RoomJob.calls, List.map_map]
  · rfl
  · intro c hc
    obtain ⟨e, -, rfl⟩ := List.mem_map.1 hc
    exact decide_eq_true rfl

/-- **A broadcast calls `Send` once for every player in the room**, when its buffer is broadcast only once. -/
theorem calls_of_broadcast {before after : List (RoomJob Sid)} {sendBuffer : SendBufferRef}
    (hbefore : .BroadCast sendBuffer ∉ before) (hafter : .BroadCast sendBuffer ∉ after) :
    callsOf (roomCalls (before ++ .BroadCast sendBuffer :: after)) sendBuffer = members (roomAfter before) := by
  rw [roomCalls, roomCallsFrom_append, roomCallsFrom, callsOf_append, callsOf_append, callsOf_calls,
    callsOf_eq_nil (roomCallsFrom OrdMap.empty before), callsOf_eq_nil (roomCallsFrom _ after),
    List.nil_append, List.append_nil]
  · rfl
  · rintro c hc rfl
    exact hafter (broadcast_of_call hc)
  · rintro c hc rfl
    exact hbefore (broadcast_of_call hc)

theorem mem_members (jobs : List (RoomJob Sid)) (player : Player Sid) :
    player ∈ members (roomAfter jobs) ↔ InRoom jobs player := by
  rw [← mem_roomAfter, members, List.mem_map]
  constructor
  · rintro ⟨e, he, rfl⟩
    rwa [← key_roomAfter jobs e he]
  · exact fun h => ⟨_, h, rfl⟩

theorem nodup_members (jobs : List (RoomJob Sid)) : ((members (roomAfter jobs)).map (·.playerId)).Nodup := by
  have hkeys : (roomAfter jobs).entries.map Prod.fst =
      ((members (roomAfter jobs)).map (·.playerId)).map UInt64.toNat := by
    rw [members, List.map_map, List.map_map]
    exact List.map_congr_left (key_roomAfter jobs)
  exact List.Nodup.of_map _ (hkeys ▸ (roomAfter jobs).nodup_keys)

/-! ## One thing before another -/

/-- No `x` stands behind a `y`. -/
def Before {α : Type*} (l : List α) (x y : α) : Prop := l.Pairwise (fun a b => ¬ (a = y ∧ b = x))

theorem Before.sublist {α : Type*} {l l' : List α} {x y : α} (h : Before l x y) (hl : l'.Sublist l) : Before l' x y :=
  List.Pairwise.sublist hl h

theorem before_append {α : Type*} {l l' : List α} {x y : α} (hy : y ∉ l) (hx : x ∉ l') : Before (l ++ l') x y := by
  refine List.pairwise_append.2 ⟨?_, ?_, fun a ha _ _ h => hy (h.1 ▸ ha)⟩
  · exact List.pairwise_of_forall_mem_list (fun a ha _ _ h => hy (h.1 ▸ ha))
  · exact List.pairwise_of_forall_mem_list (fun _ _ b hb h => hx (h.2 ▸ hb))

theorem Before.concat {α : Type*} {l : List α} {x y z : α} (h : Before l x y) (hz : z = x → y ∉ l) :
    Before (l ++ [z]) x y := by
  refine List.pairwise_append.2 ⟨h, List.pairwise_singleton _ _, fun a ha b hb hab => ?_⟩
  rw [List.mem_singleton.1 hb] at hab
  exact hz hab.2 (hab.1 ▸ ha)

/-- **Calls come in the order of the broadcasts.** -/
theorem calls_before {first second : List (RoomJob Sid)} {x y : SendBufferRef} (hy : .BroadCast y ∉ first)
    (hx : .BroadCast x ∉ second) : Before ((roomCalls (first ++ second)).map Prod.fst) x y := by
  rw [roomCalls, roomCallsFrom_append, List.map_append]
  refine before_append (fun h => ?_) (fun h => ?_)
  · obtain ⟨c, hc, rfl⟩ := List.mem_map.1 h
    exact hy (broadcast_of_call hc)
  · obtain ⟨c, hc, rfl⟩ := List.mem_map.1 h
    exact hx (broadcast_of_call hc)

end Geon
