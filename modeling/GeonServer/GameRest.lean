import GeonServer.GameClose
import GeonServer.ServiceRest
/-!
# GameRest — the server when its clients have gone

The server's contents in a service that comes to rest (`game_drains`): a virtual function of `GameSession` has only so
many steps, and it hangs where the source is undefined and nowhere else (`undefined_of_hangs`).  `DoAsync` ends with the
push on the queue of `GRoom`, whose jobs are not run here.  In a run without the errors and the races that are not
followed up nobody is left in the set of the service or in the manager, and nobody has a player.
-/
namespace Geon

open Net Lts Function

section hangs

variable {Tid : Type} {pb : Protobuf} {s : ServiceState Tid (gameContents pb)} {t : Tid} {a : Nat}

theorem gameContents_shrinks (pb : Protobuf) : (gameContents pb).Shrinks List.length := by
  intro contents a prog out hstep prog' hprog
  rcases gameContents_step hstep with ⟨-, hout, -⟩ | ⟨op, ops, sent, rfl, hout, -⟩
  · rw [hout] at hprog
    cases hprog
  · rw [hout] at hprog
    cases hprog
    exact Nat.lt_succ_self _

/-- The functions of a session send to that session. -/
theorem GameState.Owned.sends {game game' : GameState} (h : game.Owned) {op : GameOp} {b : Nat}
    {sendBuffer : SendBufferRef} (he : game.exec a op = some (game', some (b, sendBuffer))) : b = a := by
  cases op with
  | replyLogin loginPkt =>
    cases he
    rfl
  | replyEnterGame =>
    simp only [exec] at he
    split at he
    · cases he
    · rename_i player hplayer
      cases he
      exact (h a).2 player hplayer
  | add | remove | clear | newPlayer | chat | undefined => cases he
  | leave => simp only [exec] at he; split at he <;> cases he
  | select => simp only [exec] at he; split at he <;> cases he
  | enter => simp only [exec] at he; split at he <;> cases he

variable [Fintype Tid]

/-- The contents know the session whose virtual function runs. -/
theorem known_of_callback {K : Contents SendBufferRef} {s : ServiceState Tid K} (hL : Life (s.marking a)) {c : Callback}
    {prog : K.Prog} (h : (s.workers t).task.callback = some (c, a, prog)) : s.known a := by
  have hpos := marking_of_callback h
  have hfacts := hL.facts
  have hgreeted := hfacts.greeted
  have hchain := hfacts.chain
  have hparted := hfacts.parted
  have hclosed := hfacts.closed
  have hlive : ∀ c : Callback, c.place ∈ livePlaces := fun c => by cases c <;> decide
  have hadded : 0 < s.marking a .added := by
    cases c with
    | onConnected | onRecvPacket | onDisconnected =>
      simp only [Callback.place] at hpos
      omega
  refine ⟨by rwa [ServiceState.marking_added] at hadded, ?_⟩
  by_contra hd
  have hzero := hL.dead (by
    rw [ServiceState.marking_flag _ _ rfl]
    simp [Session.part, hd]) c.place (hlive c)
  omega

/-- **A function of the server hangs where the source is undefined**: a read outside the packet, a character that is
not there, or `_currentPlayer` when there is none. -/
theorem undefined_of_hangs (hL : ∀ a, Life (s.marking a)) (hgame : GameInv s) (h : s.Hangs t) :
    ∃ c a op ops, s.Inside t c a (op :: ops) ∧ s.game.exec a op = none := by
  obtain ⟨c, a, prog, hin, hstep⟩ := h
  cases prog with
  | nil =>
    obtain ⟨_, _, _, _, hout, -⟩ := hstep _ rfl
    cases hout
  | cons op ops =>
    refine ⟨c, a, op, ops, hin, ?_⟩
    cases hexec : GameState.exec s.contents a op with
    | none => exact hexec
    | some r =>
      obtain ⟨game, _ | ⟨b, sendBuffer⟩⟩ := r
      · obtain ⟨_, _, _, _, hout, -⟩ := hstep (.goOn game ops) (by simp only [gameContents, hexec])
        cases hout
      · obtain ⟨_, _, _, _, hout, hunknown⟩ := hstep (.send game b sendBuffer ops) (by simp only [gameContents, hexec])
        cases hout
        obtain rfl := hgame.owned.sends hexec
        exact absurd (known_of_callback (hL b) hin) hunknown

end hangs

variable {Tid : Type} [Fintype Tid] [DecidableEq Tid] {pb : Protobuf} {type : ServiceType} {junk : Nat → BYTE}
  {s : ServiceState Tid (gameContents pb)}

/-- The run is without errors that are not followed up, a session is greeted before it is disconnected, and its last
packet is handled before `OnDisconnected` is called. -/
def Orderly (s : ServiceState Tid (gameContents pb)) (act : ServiceAct Tid SendBufferRef)
    (s' : ServiceState Tid (gameContents pb)) : Prop :=
  Faultless s act s' ∧ GreetedFirst s act s' ∧ PacketsFirst s act s'

instance (s : ServiceState Tid (gameContents pb)) (act : ServiceAct Tid SendBufferRef)
    (s' : ServiceState Tid (gameContents pb)) : Decidable (Orderly s act s') :=
  inferInstanceAs (Decidable (_ ∧ _ ∧ _))

/-- Nobody is in the manager, and nobody has a player. -/
structure Vacant (s : ServiceState Tid (gameContents pb)) : Prop where
  sessions : s.sessions = ∅
  manager : s.game.manager = ∅
  players : ∀ a, 0 < (s.session a).history.added →
    (s.game.game a).players = [] ∧ (s.game.game a).currentPlayer = none

theorem vacant_of_drained (hs : Reach (serviceStep type junk) Orderly (serviceState₀ (gameContents pb) gameState₀) s)
    (h : s.Drained) : Vacant s := by
  have hsessions := sessions_of_drained (hs.mono (fun _ _ _ hok => hok.1)) h
  have hparted : ∀ a, 0 < (s.session a).history.added → 0 < (s.session a).history.parted := fun a hadded => by
    rcases (h.ended a hadded).2 with ⟨-, -, hparted, -⟩ | ⟨hmem, -⟩
    · omega
    · rw [hsessions] at hmem
      cases hmem
  refine ⟨hsessions, ?_, fun a hadded => ?_⟩
  · rw [Finset.eq_empty_iff_forall_notMem]
    intro a hmem
    have hadded := added_of_manager hs a hmem
    rw [ServiceState.marking_added] at hadded
    exact not_in_manager (hs.mono (fun _ _ _ hok => hok.2.1)) a (.inl (hparted a hadded)) hmem
  · exact (closeInv_of_reach (hs.mono (fun _ _ _ hok => hok.2.2))).cleared a (.inl (hparted a hadded))

/-- **The server comes to rest when its clients have gone.**  From every state of every run, once nobody new comes,
every receive that completes is empty, `AcceptEx` does not fail and nothing is sent from outside the virtual functions,
as the jobs of `GRoom` do, every order of the remaining steps comes to an end; in an orderly run nobody is left anywhere.
Or a thread spins at a packet of no bytes, or has come to what is undefined in the source. -/
theorem game_drains [Nonempty Tid]
    (hs : Reach (serviceStep type junk) Any (serviceState₀ (gameContents pb) gameState₀) s) :
    s.Drains type junk (fun s => s.Drained ∧
      (Reach (serviceStep type junk) Orderly (serviceState₀ (gameContents pb) gameState₀) s → Vacant s) ∨
        ∃ t, s.Spins t ∨ ∃ c a op ops, s.Inside t c a (op :: ops) ∧ s.game.exec a op = none) := by
  refine ends_of_drained (gameContents_shrinks pb) hs (fun s hr hdrained => ?_) (fun s hr t hstops => ?_)
  · exact .inl ⟨hdrained, fun horderly => vacant_of_drained horderly hdrained⟩
  · refine .inr ⟨t, hstops.imp_right (fun hhangs => ?_)⟩
    exact undefined_of_hangs (ServiceReach.inv hr).life (GameReach.inv hr) hhangs

/-- A client is in the manager: wherever the server stops after an orderly run, nobody is. -/
theorem game_drains_one : ∃ s, gameRun Orderly (accepts ++ List.replicate 6 (.next .one .success)) = some s ∧
    0 ∈ s.game.manager ∧
    ∀ s', Reach (serviceStep .Server (fun _ => 0)) (fun s act s' => s.Draining act s' ∧ Orderly s act s') s s' →
      Stuck (serviceStep .Server (fun _ => 0)) ServiceState.Due s' → s'.game.manager = ∅ ∨
        ∃ t, s'.Spins t ∨ ∃ c a op ops, s'.Inside t c a (op :: ops) ∧ s'.game.exec a op = none := by
  obtain ⟨s, hrun, hr⟩ := reach_of_run (serviceStep .Server (fun _ => 0)) Orderly gameServer₀
    (accepts ++ List.replicate 6 (.next .one .success)) (by decide)
  have hend : (gameRun Orderly (accepts ++ List.replicate 6 (.next .one .success))).map
      (fun s => decide (0 ∈ s.game.manager)) = some true := by decide
  rw [gameRun, hrun, Option.map_some, Option.some.injEq] at hend
  have : Nonempty Two := ⟨.one⟩
  refine ⟨s, hrun, of_decide_eq_true hend, fun s' hr' hstuck => ?_⟩
  have hdrains := game_drains (hr.mono (fun _ _ _ _ => trivial))
  rcases hdrains.rests s' (hr'.mono (fun _ _ _ hok => hok.1)) hstuck with ⟨-, hvacant⟩ | hstops
  · exact .inl (hvacant (hr.trans (hr'.mono (fun _ _ _ hok => hok.2)))).manager
  · exact .inr hstops

end Geon
