import GeonServer.GameRun
/-!
# RoomMembers — which players of a session are in the room

The packets of one session handled one after another, between any steps of other sessions.  A session remembers one
player, the last it has entered, and `OnDisconnected` makes that one leave: the others stay.  So nobody stays if and
only if all `C_ENTER_GAME` packets of the session name the same player (`tidy_iff_same_index`).
-/
namespace Geon

open Function

/-! ## Steps one after another -/

/-- Steps of programs, each for a session. -/
def GameState.execAll : GameState → List (Nat × GameOp) → Option GameState
  | s, [] => some s
  | s, (a, op) :: steps => (s.exec a op).bind (fun r => r.1.execAll steps)

def stepsOf (a : Nat) (steps : List (Nat × GameOp)) : List GameOp :=
  (steps.filter (fun x => x.1 = a)).map Prod.snd

/-- The steps of a program for session `a`, and none of another. -/
def alone (a : Nat) (ops : List GameOp) : List (Nat × GameOp) := ops.map (fun op => (a, op))

def handled (calls : List ClientPacketHandler.Call) : List GameOp := calls.flatMap (·.handler)

theorem GameState.execAll_append (s : GameState) (steps more : List (Nat × GameOp)) :
    s.execAll (steps ++ more) = (s.execAll steps).bind (fun s' => s'.execAll more) := by
  induction steps generalizing s with
  | nil => rfl
  | cons x steps ih =>
    rw [List.cons_append, execAll, execAll, Option.bind_assoc]
    exact Option.bind_congr (fun r _ => ih r.1)

/-- **What every step keeps is kept by all of them.** -/
theorem GameState.execAll_inv (P : GameState → Prop) (ok : Nat → GameOp → Prop)
    (hstep : ∀ s s' a op, P s → ok a op → Effect s s' a op → P s') : ∀ (steps : List (Nat × GameOp)) (s s' : GameState),
    P s → (∀ x ∈ steps, ok x.1 x.2) → s.execAll steps = some s' → P s'
  | [], s, s', h, _, he => by
    cases he
    exact h
  | (a, op) :: steps, s, s', h, hok, he => by
    obtain ⟨⟨s₁, sent⟩, h₁, he⟩ := Option.bind_eq_some_iff.1 he
    exact execAll_inv P ok hstep steps s₁ s' (hstep s s₁ a op h (hok _ List.mem_cons_self) (exec_effect h₁))
      (fun x hx => hok x (List.mem_cons_of_mem _ hx)) he

theorem stepsOf_alone (a : Nat) (ops : List GameOp) : stepsOf a (alone a ops) = ops := by
  rw [stepsOf, alone, List.filter_map, List.map_map, List.filter_eq_self.2 (by simp)]
  exact List.map_id ops

theorem mem_stepsOf {a : Nat} {op : GameOp} {steps : List (Nat × GameOp)} (h : (a, op) ∈ steps) :
    op ∈ stepsOf a steps :=
  List.mem_map.2 ⟨(a, op), List.mem_filter.2 ⟨h, by simp⟩, rfl⟩

/-- The steps before and after one step of session `a`. -/
theorem split_stepsOf {a : Nat} {op : GameOp} {before after : List GameOp} {steps : List (Nat × GameOp)}
    (h : stepsOf a steps = before ++ op :: after) : ∃ steps₁ steps₂, steps = steps₁ ++ (a, op) :: steps₂ ∧
      stepsOf a steps₁ = before ∧ stepsOf a steps₂ = after := by
  obtain ⟨xs, ys, hfilter, hxs, hys⟩ := List.map_eq_append_iff.1 h
  obtain ⟨⟨b, op'⟩, zs, rfl, rfl, hzs⟩ := List.map_eq_cons_iff.1 hys
  obtain ⟨steps₁, rest, rfl, hfirst, hrest⟩ := List.filter_eq_append_iff.1 hfilter
  obtain ⟨gap, steps₂, rfl, hgap, hb, hsecond⟩ := List.filter_eq_cons_iff.1 hrest
  obtain rfl : b = a := by simpa using hb
  refine ⟨steps₁ ++ gap, steps₂, by simp, ?_, by rw [stepsOf, hsecond, hzs]⟩
  rw [stepsOf, List.filter_append, hfirst, List.filter_eq_nil_iff.2 (by simpa using hgap), List.append_nil, hxs]

/-! ## The packets of a session -/

/-- The player indices of the `C_ENTER_GAME` packets. -/
def enterIndices (calls : List ClientPacketHandler.Call) : List UInt64 :=
  calls.filterMap (fun
    | .Handle_C_ENTER_GAME pkt => some pkt.playerIndex
    | _ => none)

/-- All `C_ENTER_GAME` packets name the same player. -/
def SameIndex (calls : List ClientPacketHandler.Call) : Prop :=
  ∀ i ∈ enterIndices calls, ∀ j ∈ enterIndices calls, i = j

instance (calls : List ClientPacketHandler.Call) : Decidable (SameIndex calls) :=
  decidable_of_iff ((enterIndices calls).all (fun i => (enterIndices calls).all (fun j => i == j)) = true)
    (by simp [SameIndex])

/-- The indices are in range for a session that has `n` players. -/
def InRange : Nat → List ClientPacketHandler.Call → Prop
  | _, [] => True
  | n, .Handle_C_LOGIN _ :: calls => InRange (n + loginPlayers.length) calls
  | n, .Handle_C_ENTER_GAME pkt :: calls => pkt.playerIndex.toNat < n ∧ InRange n calls
  | n, .Handle_C_CHAT _ :: calls | n, .Handle_INVALID :: calls => InRange n calls

/-- The players in the room when the jobs pushed so far have run. -/
def GameState.room (s : GameState) : List (Player Nat) := members (roomAfter s.roomJobs)

/-- The room never holds a player of the session but its `_currentPlayer`, however many of the jobs have run. -/
def OneMember (s : GameState) (a : Nat) : Prop :=
  ∀ jobs, jobs <+: s.roomJobs → ∀ player ∈ members (roomAfter jobs), player.ownerSession = a →
    (s.game a).currentPlayer = some player

/-- No player of the session is left in the room. -/
def NoMember (s : GameState) (a : Nat) : Prop := ∀ player ∈ s.room, player.ownerSession ≠ a

/-- A session that has no players yet. -/
structure Fresh (s : GameState) (a : Nat) : Prop where
  owned : s.Owned
  players : (s.game a).players = []
  currentPlayer : (s.game a).currentPlayer = none
  room : ∀ player, .Enter player ∈ s.roomJobs → player.ownerSession ≠ a

/-- The session's packets leave the room tidy, whatever other sessions do in between. -/
structure Tidy (s : GameState) (a : Nat) (calls : List ClientPacketHandler.Call) : Prop where
  connected : ∀ steps s', stepsOf a steps <+: handled calls → s.execAll steps = some s' → OneMember s' a
  disconnected : ∀ steps s', stepsOf a steps = handled calls ++ GameSession.onDisconnected → s.execAll steps = some s' →
    NoMember s' a

/-! ## One player -/

theorem enter_of_member {jobs : List (RoomJob Nat)} {player : Player Nat} (h : player ∈ members (roomAfter jobs)) :
    .Enter player ∈ jobs := by
  obtain ⟨before, after, rfl, -⟩ := (mem_members jobs player).1 h
  simp

/-- Session `a` has entered no player but its `i`-th, which is its `_currentPlayer`. -/
structure Single (a : Nat) (i : UInt64) (s : GameState) : Prop where
  owned : s.Owned
  current : ∀ player, (s.game a).currentPlayer = some player → (s.game a).players[i.toNat]? = some player
  room : (s.game a).currentPlayer ≠ none → (s.game a).room = true
  entered : ∀ player, .Enter player ∈ s.roomJobs → player.ownerSession = a →
    (s.game a).currentPlayer = some player

variable {s s' : GameState} {a : Nat} {i : UInt64}

theorem Fresh.single (h : Fresh s a) (i : UInt64) : Single a i s where
  owned := h.owned
  current player hc := by
    rw [h.currentPlayer] at hc
    cases hc
  room hc := absurd h.currentPlayer hc
  entered player hmem ho := absurd ho (h.room player hmem)

/-- The step is one of the packet handlers, or `Remove`, and selects no player but the `i`-th. -/
def GameOp.Selects (i : UInt64) (op : GameOp) : Prop :=
  (op = .remove ∨ op.ofPacket = true) ∧ ∀ index, op = .select index → index = i

theorem Single.same (h : Single a i s) (ho : s'.Owned) (hg : s'.game a = s.game a)
    (hjobs : ∀ player, .Enter player ∈ s'.roomJobs → player.ownerSession = a → .Enter player ∈ s.roomJobs) :
    Single a i s' where
  owned := ho
  current := by rw [hg]; exact h.current
  room := by rw [hg]; exact h.room
  entered player hmem ho := by rw [hg]; exact h.entered player (hjobs player hmem ho) ho

theorem enter_of_other {b : Nat} {op : GameOp} (ho : s.Owned) (he : GameState.Effect s s' b op) (hb : b ≠ a)
    (player : Player Nat) (hmem : .Enter player ∈ s'.roomJobs) (hplayer : player.ownerSession = a) :
    .Enter player ∈ s.roomJobs := by
  cases he with
  | add _ _ hjobs | remove _ _ hjobs | stay _ _ _ _ hjobs | skip _ _ _ hjobs | clear _ _ hjobs | newPlayer _ _ _ _ hjobs
  | select _ _ _ _ _ hjobs => rwa [hjobs] at hmem
  | leave _ _ _ _ hjobs | chat _ _ _ _ hjobs =>
    rw [hjobs] at hmem
    simpa using hmem
  | enter other hc _ _ hjobs =>
    rw [hjobs] at hmem
    rcases List.mem_append.1 hmem with hmem | hmem
    · exact hmem
    · cases List.mem_singleton.1 hmem
      exact absurd (((ho b).2 player hc).symm.trans hplayer) hb

theorem Single.step {b : Nat} {op : GameOp} (h : Single a i s) (hok : b = a → op.Selects i)
    (he : GameState.Effect s s' b op) : Single a i s' := by
  have howned := he.owned h.owned
  by_cases hb : b = a
  · subst hb
    obtain ⟨hkind, hselect⟩ := hok rfl
    cases he with
    | add hg _ hjobs | remove hg _ hjobs | stay _ _ hg _ hjobs =>
      exact h.same howned (by rw [hg]) (fun _ hmem _ => hjobs ▸ hmem)
    | leave | skip | clear => rcases hkind with hkind | hkind <;> cases hkind
    | newPlayer name type hg hm hjobs =>
      refine ⟨howned, fun player hc => ?_, ?_, ?_⟩
      · rw [hg, update_self] at hc ⊢
        have hold := h.current player hc
        rwa [List.getElem?_append_left (List.getElem?_eq_some_iff.1 hold).1]
      · rw [hg, update_self]
        exact h.room
      · rw [hg, update_self, hjobs]
        exact h.entered
    | select index player hp hg hm hjobs =>
      obtain rfl := hselect index rfl
      refine ⟨howned, fun other hc => ?_, ?_, ?_⟩
      · rw [hg, update_self] at hc ⊢
        cases hc
        exact hp
      · rw [hg, update_self]
        exact fun _ => rfl
      · -- whom the session has entered before is the player it selects again
        rw [hg, update_self, hjobs]
        intro other hmem ho
        have hold := h.current other (h.entered other hmem ho)
        rw [hp] at hold
        exact hold
    | enter player hc hg hm hjobs =>
      refine ⟨howned, ?_, ?_, fun other hmem ho => ?_⟩
      · rw [hg]
        exact h.current
      · rw [hg]
        exact h.room
      · rw [hg]
        rcases List.mem_append.1 (hjobs ▸ hmem) with hmem | hmem
        · exact h.entered other hmem ho
        · cases List.mem_singleton.1 hmem
          exact hc
    | chat msg sendBuffer hg hm hjobs =>
      refine h.same howned (by rw [hg]) (fun player hmem _ => ?_)
      rw [hjobs] at hmem
      simpa using hmem
  · exact h.same howned (he.game_of_ne (Ne.symm hb)) (enter_of_other h.owned he hb)

theorem Single.oneMember (h : Single a i s) : OneMember s a := fun _ hjobs player hmem ho =>
  h.entered player (hjobs.subset (enter_of_member hmem)) ho

/-! ## After `OnDisconnected` -/

/-- **The player that leaves is the only one that was there.** -/
theorem Single.leave (h : Single a i s) (he : GameState.Effect s s' a .leave) :
    s'.Owned ∧ NoMember s' a := by
  refine ⟨he.owned h.owned, fun player hmem ho => ?_⟩
  rw [GameState.room, mem_members] at hmem
  cases he with
  | leave other hc _ _ hjobs =>
    rw [hjobs, inRoom_concat] at hmem
    rcases hmem with hmem | ⟨hroom, hstays⟩
    · cases hmem
    · have hcur := h.entered player (enter_of_member ((mem_members _ _).2 hroom)) ho
      rw [hc] at hcur
      cases hcur
      exact hstays rfl
  | skip hnone hg _ hjobs =>
    -- the session has entered nobody
    rw [hjobs] at hmem
    have hcur := h.entered player (enter_of_member ((mem_members _ _).2 hmem)) ho
    rcases hnone with hnone | hnone
    · rw [hnone] at hcur
      cases hcur
    · rw [h.room (by rw [hcur]; simp)] at hnone
      cases hnone
  | stay _ hne => exact absurd (by simp) hne

theorem NoMember.step {b : Nat} {op : GameOp} (ho : s.Owned) (h : NoMember s a) (hok : b = a → op ≠ .enter)
    (he : GameState.Effect s s' b op) : NoMember s' a := by
  intro player hmem hplayer
  rw [GameState.room, mem_members] at hmem
  refine h player ?_ hplayer
  rw [GameState.room, mem_members]
  cases he with
  | add _ _ hjobs | remove _ _ hjobs | stay _ _ _ _ hjobs | skip _ _ _ hjobs | clear _ _ hjobs | newPlayer _ _ _ _ hjobs
  | select _ _ _ _ _ hjobs => rwa [hjobs] at hmem
  | leave _ _ _ _ hjobs | chat _ _ _ _ hjobs =>
    rw [hjobs, inRoom_concat] at hmem
    rcases hmem with hmem | hmem
    · cases hmem
    · exact hmem.1
  | enter other hc _ _ hjobs =>
    rw [hjobs, inRoom_concat] at hmem
    rcases hmem with hmem | hmem
    · cases hmem
      exact absurd rfl (hok (((ho b).2 player hc).symm.trans hplayer))
    · exact hmem.1

theorem op_handled {op : GameOp} {calls : List ClientPacketHandler.Call} (h : op ∈ handled calls) :
    op.ofPacket = true ∧ ∀ index, op = .select index → index ∈ enterIndices calls := by
  obtain ⟨call, hcall, hop⟩ := List.mem_flatMap.1 h
  refine ⟨ofPacket_handler call op hop, ?_⟩
  rintro index rfl
  cases call with
  | Handle_INVALID => cases hop
  | Handle_C_LOGIN pkt => simp [ClientPacketHandler.Call.handler] at hop
  | Handle_C_ENTER_GAME pkt =>
    obtain rfl : index = pkt.playerIndex := by simpa [ClientPacketHandler.Call.handler] using hop
    exact List.mem_filterMap.2 ⟨_, hcall, rfl⟩
  | Handle_C_CHAT pkt => simp [ClientPacketHandler.Call.handler] at hop

theorem SameIndex.selects {calls : List ClientPacketHandler.Call} (h : SameIndex calls) :
    ∃ i, ∀ op ∈ handled calls, op.Selects i := by
  cases hcalls : enterIndices calls with
  | nil =>
    refine ⟨0, fun op hop => ⟨.inr (op_handled hop).1, fun index hindex => ?_⟩⟩
    have := (op_handled hop).2 index hindex
    rw [hcalls] at this
    cases this
  | cons i rest =>
    refine ⟨i, fun op hop => ⟨.inr (op_handled hop).1, fun index hindex => ?_⟩⟩
    exact h index ((op_handled hop).2 index hindex) i (by rw [hcalls]; exact List.mem_cons_self)

/-- The steps of the session's handlers keep it with one player, whatever the other sessions do. -/
theorem Single.run {steps : List (Nat × GameOp)} (h : Single a i s) (hok : ∀ op ∈ stepsOf a steps, op.Selects i)
    (he : s.execAll steps = some s') : Single a i s' := by
  refine GameState.execAll_inv (Single a i) (fun b op => b = a → op.Selects i) ?_ steps s s' h ?_ he
  · exact fun s s' b op h hok he => h.step hok he
  · rintro ⟨b, op⟩ hmem rfl
    exact hok op (mem_stepsOf hmem)

/-- **When all `C_ENTER_GAME` packets name the same player the room is left tidy.** -/
theorem tidy_of_same_index {calls : List ClientPacketHandler.Call} (h : Fresh s a) (hsame : SameIndex calls) :
    Tidy s a calls := by
  obtain ⟨i, hi⟩ := hsame.selects
  refine ⟨fun steps s' hsteps he => ?_, fun steps s' hsteps he => ?_⟩
  · exact ((h.single i).run (fun op hop => hi op (hsteps.subset hop)) he).oneMember
  · -- up to the step of `OnDisconnected` that calls `DoAsync`, and from there on
    obtain ⟨before, after, rfl, hbefore, hafter⟩ := split_stepsOf
      (show stepsOf a steps = (handled calls ++ [.remove]) ++ .leave :: [.clear] by
        rw [hsteps, List.append_assoc]
        rfl)
    rw [GameState.execAll_append] at he
    obtain ⟨s₁, h₁, he⟩ := Option.bind_eq_some_iff.1 he
    obtain ⟨⟨s₂, sent⟩, h₂, he⟩ := Option.bind_eq_some_iff.1 he
    have hsingle := (h.single i).run (fun op hop => by
      rw [hbefore] at hop
      rcases List.mem_append.1 hop with hop | hop
      · exact hi op hop
      · rw [List.mem_singleton.1 hop]
        exact ⟨.inl rfl, fun index hindex => by cases hindex⟩) h₁
    have hleft := hsingle.leave (GameState.exec_effect h₂)
    refine (GameState.execAll_inv (fun s => s.Owned ∧ NoMember s a) (fun b op => b = a → op ≠ .enter) ?_ after
      s₂ s' hleft ?_ he).2
    · exact fun s s' b op h hok he => ⟨he.owned h.1, h.2.step h.1 hok he⟩
    · rintro ⟨b, op⟩ hmem rfl
      have hop := mem_stepsOf hmem
      rw [hafter] at hop
      rw [List.mem_singleton.1 hop]
      simp

/-! ## Two players -/

/-- Session `a`, whose first player got the id `g`, has entered the players with these indices, one after another. -/
structure HasEntered (g : UInt64) (a : Nat) (s : GameState) (indices : List UInt64) : Prop where
  owned : s.Owned
  next : s.idGenerator = g + UInt64.ofNat (s.game a).players.length
  ids : ∀ (i : UInt64) (player : Player Nat), (s.game a).players[i.toNat]? = some player → player.playerId = g + i
  room : ∀ i ∈ indices, ∃ player, (s.game a).players[i.toNat]? = some player ∧ InRoom s.roomJobs player
  current : ∀ j, indices.getLast? = some j →
    (s.game a).currentPlayer = (s.game a).players[j.toNat]? ∧ (s.game a).room = true

variable {g : UInt64} {indices : List UInt64}

theorem Fresh.entered (h : Fresh s a) : HasEntered s.idGenerator a s [] where
  owned := h.owned
  next := by rw [h.players]; simp
  ids i player hp := by
    rw [h.players] at hp
    cases hp
  room i hi := by cases hi
  current j hj := by cases hj

theorem HasEntered.same (h : HasEntered g a s indices) (hg : s'.game = s.game) (hid : s'.idGenerator = s.idGenerator)
    (hroom : ∀ player, InRoom s.roomJobs player → InRoom s'.roomJobs player) : HasEntered g a s' indices where
  owned := h.owned.same hg
  next := by rw [hg, hid]; exact h.next
  ids := by rw [hg]; exact h.ids
  room i hi := by
    obtain ⟨player, hp, hin⟩ := h.room i hi
    rw [hg]
    exact ⟨player, hp, hroom player hin⟩
  current := by rw [hg]; exact h.current

theorem HasEntered.newPlayer (h : HasEntered g a s indices) (name : List BYTE) (type : Int32) :
    ∃ s', s.exec a (.newPlayer name type) = some (s', none) ∧ HasEntered g a s' indices ∧
      (s'.game a).players.length = (s.game a).players.length + 1 := by
  refine ⟨_, rfl, ?_, by simp [GameState.setGame]⟩
  refine ⟨GameState.Effect.owned (s := s) (a := a) (.newPlayer name type rfl rfl rfl) h.owned, ?_, fun i player hp => ?_,
    fun i hi => ?_, fun j hj => ?_⟩
  · simp only [GameState.setGame, update_self, List.length_append, List.length_singleton, h.next, UInt64.ofNat_add]
    rw [UInt64.add_assoc]
    rfl
  · simp only [GameState.setGame, update_self] at hp
    rcases Nat.lt_or_ge i.toNat (s.game a).players.length with hlt | hge
    · rw [List.getElem?_append_left hlt] at hp
      exact h.ids i player hp
    · rw [List.getElem?_append_right hge] at hp
      have hzero := (List.getElem?_eq_some_iff.1 hp).1
      simp only [List.length_singleton, Nat.lt_one_iff] at hzero
      rw [hzero] at hp
      cases hp
      have hi : i = UInt64.ofNat (s.game a).players.length := by
        rw [← UInt64.ofNat_toNat (x := i)]
        congr 1
        omega
      rw [h.next, hi]
  · obtain ⟨player, hp, hin⟩ := h.room i hi
    refine ⟨player, ?_, hin⟩
    simp only [GameState.setGame, update_self]
    rwa [List.getElem?_append_left (List.getElem?_eq_some_iff.1 hp).1]
  · obtain ⟨hc, hr⟩ := h.current j hj
    obtain ⟨player, hp, -⟩ := h.room j (List.mem_of_getLast? hj)
    simp only [GameState.setGame, update_self]
    exact ⟨by rw [hc, List.getElem?_append_left (List.getElem?_eq_some_iff.1 hp).1], hr⟩

/-- `Handle_C_ENTER_GAME` takes nobody out of the room: two players of the session have different ids. -/
theorem HasEntered.enterGame (h : HasEntered g a s indices) {pkt : Protocol.C_ENTER_GAME}
    (hlt : pkt.playerIndex.toNat < (s.game a).players.length) :
    ∃ s', s.execAll (alone a (ClientPacketHandler.Call.handler (.Handle_C_ENTER_GAME pkt))) = some s' ∧
      HasEntered g a s' (indices ++ [pkt.playerIndex]) ∧ (s'.game a).players = (s.game a).players := by
  have hp : (s.game a).players[pkt.playerIndex.toNat]? = some (s.game a).players[pkt.playerIndex.toNat] :=
    List.getElem?_eq_getElem hlt
  generalize (s.game a).players[pkt.playerIndex.toNat] = player at hp
  have hall : s.execAll (alone a (ClientPacketHandler.Call.handler (.Handle_C_ENTER_GAME pkt))) =
      some { s.setGame a { s.game a with currentPlayer := some player, room := true } with
        numBuffers := s.numBuffers + 1, roomJobs := s.roomJobs ++ [.Enter player] } := by
    simp [alone, ClientPacketHandler.Call.handler, GameState.execAll, GameState.exec, hp, GameState.setGame,
      GameState.doAsync]
  refine ⟨_, hall, ⟨?_, ?_, fun i other ho => ?_, fun i hi => ?_, fun j hj => ?_⟩, ?_⟩
  · refine GameState.Owned.set (a := a) h.owned rfl (h.owned a).1 (fun other hc => ?_)
    cases hc
    exact (h.owned a).1 player (List.mem_of_getElem? hp)
  · simp only [GameState.setGame, update_self]
    exact h.next
  · simp only [GameState.setGame, update_self] at ho
    exact h.ids i other ho
  · simp only [GameState.setGame, update_self, inRoom_concat]
    rcases List.mem_append.1 hi with hi | hi
    · obtain ⟨other, ho, hin⟩ := h.room i hi
      refine ⟨other, ho, .inr ⟨hin, fun hremoves => hremoves.2 ?_⟩⟩
      -- the same id, so the same index
      have hid := hremoves.1
      rw [h.ids _ _ hp, h.ids _ _ ho, UInt64.add_right_inj] at hid
      rw [hid, ho] at hp
      exact (Option.some.inj hp).symm
    · rw [List.mem_singleton.1 hi]
      exact ⟨player, hp, .inl rfl⟩
  · obtain rfl : pkt.playerIndex = j := by simpa using hj
    simp only [GameState.setGame, update_self]
    exact ⟨hp.symm, trivial⟩
  · simp only [GameState.setGame, update_self]

theorem alone_append (a : Nat) (ops more : List GameOp) : alone a (ops ++ more) = alone a ops ++ alone a more :=
  List.map_append

theorem HasEntered.login (h : HasEntered g a s indices) : ∀ players : List (List BYTE × Int32), ∃ s',
    s.execAll (alone a (players.map (fun player => .newPlayer player.1 player.2))) = some s' ∧
      HasEntered g a s' indices ∧ (s'.game a).players.length = (s.game a).players.length + players.length := by
  intro players
  induction players generalizing s with
  | nil => exact ⟨s, rfl, h, rfl⟩
  | cons player players ih =>
    obtain ⟨s₁, h₁, hentered, hlen⟩ := h.newPlayer player.1 player.2
    obtain ⟨s', h', hentered', hlen'⟩ := ih hentered
    refine ⟨s', ?_, hentered', by rw [hlen', hlen, List.length_cons]; omega⟩
    rw [List.map_cons, alone, List.map_cons, GameState.execAll, h₁]
    exact h'

/-- **The session goes through all its packets**, and then the room has every player it has entered. -/
theorem HasEntered.handled : ∀ (calls : List ClientPacketHandler.Call) {s : GameState} {indices : List UInt64},
    HasEntered g a s indices → InRange (s.game a).players.length calls →
      ∃ s', s.execAll (alone a (handled calls)) = some s' ∧ HasEntered g a s' (indices ++ enterIndices calls)
  | [], s, indices, h, _ => ⟨s, rfl, by simpa [enterIndices] using h⟩
  | call :: calls, s, indices, h, hrange => by
    suffices ∃ s', s.execAll (alone a call.handler) = some s' ∧ HasEntered g a s' (indices ++ enterIndices [call]) ∧
        InRange (s'.game a).players.length calls by
      obtain ⟨s₁, h₁, hentered, hrange₁⟩ := this
      obtain ⟨s', h', hentered'⟩ := HasEntered.handled calls hentered hrange₁
      refine ⟨s', ?_, ?_⟩
      · rw [Geon.handled, List.flatMap_cons, alone_append, GameState.execAll_append, h₁]
        exact h'
      · rwa [List.append_assoc, enterIndices, enterIndices, ← List.filterMap_append] at hentered'
    cases call with
    | Handle_INVALID => exact ⟨s, rfl, by simpa [enterIndices] using h, hrange⟩
    | Handle_C_LOGIN pkt =>
      obtain ⟨s₁, h₁, hentered, hlen⟩ := h.login loginPlayers
      refine ⟨{ s₁ with numBuffers := s₁.numBuffers + 1 }, ?_, ?_, ?_⟩
      · rw [ClientPacketHandler.Call.handler, alone_append, GameState.execAll_append, h₁]
        rfl
      · rw [show enterIndices [.Handle_C_LOGIN pkt] = [] from rfl, List.append_nil]
        exact hentered.same rfl rfl (fun _ hin => hin)
      · show InRange (s₁.game a).players.length calls
        rw [hlen]
        exact hrange
    | Handle_C_ENTER_GAME pkt =>
      obtain ⟨s₁, h₁, hentered, hplayers⟩ := h.enterGame hrange.1
      exact ⟨s₁, h₁, hentered, by rw [hplayers]; exact hrange.2⟩
    | Handle_C_CHAT pkt =>
      refine ⟨_, rfl, ?_, hrange⟩
      rw [show enterIndices [.Handle_C_CHAT pkt] = [] from rfl, List.append_nil]
      refine h.same rfl rfl (fun player hin => ?_)
      exact (inRoom_concat _ _ _).2 (.inr ⟨hin, fun hremoves => hremoves⟩)

/-- **A player that is not the last one entered stays in the room.** -/
theorem HasEntered.left_behind (h : HasEntered g a s indices) {i j : UInt64} (hi : i ∈ indices)
    (hj : indices.getLast? = some j) (hne : i ≠ j) :
    ∃ s', s.execAll (alone a GameSession.onDisconnected) = some s' ∧ ¬ NoMember s' a := by
  obtain ⟨player, hp, hin⟩ := h.room i hi
  obtain ⟨last, hlast, -⟩ := h.room j (List.mem_of_getLast? hj)
  obtain ⟨hc, hr⟩ := h.current j hj
  rw [hlast] at hc
  have hall : s.execAll (alone a GameSession.onDisconnected) =
      some { s.setGame a { s.game a with currentPlayer := none, players := [] } with
        manager := s.manager.erase a, roomJobs := s.roomJobs ++ [.Leave last] } := by
    simp [alone, GameSession.onDisconnected, GameState.execAll, GameState.exec, hc, hr, GameState.setGame,
      GameState.doAsync]
  refine ⟨_, hall, fun hno => ?_⟩
  refine hno player ?_ ((h.owned a).1 player (List.mem_of_getElem? hp))
  rw [GameState.room, mem_members]
  refine (inRoom_concat _ _ _).2 (.inr ⟨hin, fun hremoves => hne ?_⟩)
  rw [RoomJob.removes, h.ids _ _ hlast, h.ids _ _ hp, UInt64.add_right_inj] at hremoves
  exact hremoves.symm

/-- **The room is left tidy exactly when all `C_ENTER_GAME` packets of the session name the same player.** -/
theorem tidy_iff_same_index {calls : List ClientPacketHandler.Call} (h : Fresh s a) (hrange : InRange 0 calls) :
    Tidy s a calls ↔ SameIndex calls := by
  refine ⟨fun htidy => ?_, tidy_of_same_index h⟩
  by_contra hdiff
  obtain ⟨s₁, h₁, hentered⟩ := h.entered.handled calls (by rw [h.players]; exact hrange)
  rw [List.nil_append] at hentered
  -- of two different indices one is not the last
  simp only [SameIndex, not_forall] at hdiff
  obtain ⟨i, hi, j, hj, hne⟩ := hdiff
  obtain ⟨last, hlast⟩ : ∃ last, (enterIndices calls).getLast? = some last :=
    ⟨_, List.getLast?_eq_some_getLast (List.ne_nil_of_mem hi)⟩
  obtain ⟨k, hk, hother⟩ : ∃ k ∈ enterIndices calls, k ≠ last := by
    by_cases hil : i = last
    · exact ⟨j, hj, fun hjl => hne (hil.trans hjl.symm)⟩
    · exact ⟨i, hi, hil⟩
  obtain ⟨s', h', hleft⟩ := hentered.left_behind hk hlast hother
  refine hleft (htidy.disconnected (alone a (handled calls ++ GameSession.onDisconnected)) s' (stepsOf_alone _ _) ?_)
  rw [alone_append, GameState.execAll_append, h₁]
  exact h'

theorem fresh_start (a : Nat) : Fresh gameState₀ a where
  owned _ := ⟨fun _ hp => (by cases hp), fun _ hc => (by cases hc)⟩
  players := rfl
  currentPlayer := rfl
  room _ hmem := by cases hmem

/-- A login and two characters, one after the other. -/
def twoCharacters : List ClientPacketHandler.Call :=
  [.Handle_C_LOGIN ⟨⟩, .Handle_C_ENTER_GAME ⟨0⟩, .Handle_C_ENTER_GAME ⟨1⟩]

/-- **The first of two characters stays in the room** when the session has been disconnected; before that both were
there. -/
theorem first_character_stays : ∃ s₁ s₂, gameState₀.execAll (alone 0 (handled twoCharacters)) = some s₁ ∧
    s₁.room.map (·.ownerSession) = [0, 0] ∧
    gameState₀.execAll (alone 0 (handled twoCharacters ++ GameSession.onDisconnected)) = some s₂ ∧
    ∃ player ∈ s₂.room, player.ownerSession = 0 := by
  have h₁ : (gameState₀.execAll (alone 0 (handled twoCharacters))).map (fun s => s.room.map (·.ownerSession)) =
      some [0, 0] := by decide
  have h₂ : (gameState₀.execAll (alone 0 (handled twoCharacters ++ GameSession.onDisconnected))).map
      (fun s => s.room.map (·.ownerSession)) = some [0] := by decide
  obtain ⟨s₁, hs₁, hroom₁⟩ := Option.map_eq_some_iff.1 h₁
  obtain ⟨s₂, hs₂, hroom₂⟩ := Option.map_eq_some_iff.1 h₂
  obtain ⟨player, rest, hlist, howner, -⟩ := List.map_eq_cons_iff.1 hroom₂
  exact ⟨s₁, s₂, hs₁, hroom₁, hs₂, player, by rw [hlist]; exact List.mem_cons_self, howner⟩

/-- A login, a character, "Hi", and the same character again. -/
def oneCharacter : List ClientPacketHandler.Call :=
  [.Handle_C_LOGIN ⟨⟩, .Handle_C_ENTER_GAME ⟨1⟩, .Handle_C_CHAT ⟨[0x48, 0x69]⟩, .Handle_C_ENTER_GAME ⟨1⟩]

theorem tidy_iff_same_index_once : Tidy gameState₀ 0 oneCharacter := by
  have hrange : InRange 0 oneCharacter := by
    simp only [oneCharacter, InRange, and_true]
    decide
  exact (tidy_iff_same_index (fresh_start 0) hrange).2 (by decide)

/-! ## In the server -/

variable {Tid : Type} [Fintype Tid] [DecidableEq Tid] {pb : Protobuf} {type : ServiceType} {junk : Nat → BYTE}
  {ok : ServiceState Tid (gameContents pb) → ServiceAct Tid SendBufferRef → ServiceState Tid (gameContents pb) → Prop}

/-- **A run of the server is steps one after another** for its contents. -/
theorem GameReach.execAll {s : ServiceState Tid (gameContents pb)} (hs : Lts.Reach (serviceStep type junk) ok
    (serviceState₀ (gameContents pb) gameState₀) s) : ∃ steps, gameState₀.execAll steps = some s.game := by
  refine hs.inv (P := fun s : ServiceState Tid (gameContents pb) => ∃ steps, gameState₀.execAll steps = some s.game)
    ⟨[], rfl⟩ (fun s act s' hr h he _ => ?_)
  obtain ⟨steps, hsteps⟩ := h
  cases gameStep_of_calls (ServiceState.serviceStep_calls (ServiceReach.inv hr).life he) with
  | silent hsilent => exact ⟨steps, hsteps.trans (congrArg some hsilent.contents.symm)⟩
  | ret _ _ _ _ _ hg => exact ⟨steps, hsteps.trans (congrArg some hg.symm)⟩
  | exec t c a op ops sent _ _ hexec =>
    refine ⟨steps ++ [(a, op)], ?_⟩
    rw [GameState.execAll_append, hsteps, Option.bind_some, GameState.execAll, hexec]
    rfl

end Geon
