import GeonServer.GameContents
import GeonServer.ServiceCalls
/-!
# GameRun — the contents of the server in a run of its service

What the threads of the service have left of the virtual functions of `GameSession`, and how far `OnDisconnected` of a
session has come (`Past`).  The order of the callbacks and what follows from it is in GameOrder and GameClose.
-/
namespace Geon

open Net Lts Function

variable {Tid : Type} {pb : Protobuf}

/-- The program is one of this virtual function, or what is left of one. -/
def Callback.Has : Callback → List GameOp → Prop
  | .onConnected, prog => prog <:+ GameSession.onConnected
  | .onRecvPacket, prog => ∀ op ∈ prog, op.ofPacket = true
  | .onDisconnected, prog => prog <:+ GameSession.onDisconnected

theorem Callback.Has.tail {c : Callback} {op : GameOp} {ops : List GameOp} (h : c.Has (op :: ops)) : c.Has ops := by
  cases c with
  | onConnected => exact (List.suffix_cons op ops).trans h
  | onRecvPacket => exact fun x hx => h x (List.mem_cons_of_mem _ hx)
  | onDisconnected => exact (List.suffix_cons op ops).trans h

theorem has_of_begins {c : Callback} {prog : List GameOp} (h : (gameContents pb).Begins c prog) : c.Has prog := by
  cases c with
  | onConnected => exact h ▸ List.suffix_rfl
  | onRecvPacket =>
    obtain ⟨buffer, len, rfl⟩ := h
    exact ofPacket_onRecvPacket pb buffer len
  | onDisconnected => exact h ▸ List.suffix_rfl

theorem Callback.Has.head_mem {c : Callback} {op : GameOp} {ops : List GameOp} (h : c.Has (op :: ops)) :
    c = .onConnected ∧ op = .add ∨ c = .onRecvPacket ∧ op.ofPacket = true ∨
      c = .onDisconnected ∧ op ∈ GameSession.onDisconnected := by
  cases c with
  | onConnected => exact .inl ⟨rfl, List.mem_singleton.1 (h.subset List.mem_cons_self)⟩
  | onRecvPacket => exact .inr (.inl ⟨rfl, h op List.mem_cons_self⟩)
  | onDisconnected => exact .inr (.inr ⟨rfl, h.subset List.mem_cons_self⟩)

theorem gameContents_step {s : GameState} {a : Nat} {prog : List GameOp}
    {out : Outcome GameState (List GameOp) SendBufferRef} (h : (gameContents pb).step s a prog = some out) :
    prog = [] ∧ out.prog? = none ∧ out.contents = s ∨
      ∃ op ops sent, prog = op :: ops ∧ out.prog? = some ops ∧ s.exec a op = some (out.contents, sent) := by
  simp only [gameContents] at h
  split at h
  · cases h
    exact .inl ⟨rfl, rfl, rfl⟩
  · rename_i op ops
    split at h
    · cases h
    · cases h
      exact .inr ⟨op, ops, _, rfl, rfl, ‹_›⟩
    · cases h
      exact .inr ⟨op, ops, _, rfl, rfl, ‹_›⟩

/-! ## A step -/

/-- A thread is in this virtual function of session `a`, with this left of it. -/
def ServiceState.Inside (s : ServiceState Tid (gameContents pb)) (t : Tid) (c : Callback) (a : Nat)
    (prog : List GameOp) : Prop :=
  (s.workers t).task.callback = some (c, a, prog)

/-- What the contents of the server have. -/
def ServiceState.game (s : ServiceState Tid (gameContents pb)) : GameState := s.contents

variable {s s' : ServiceState Tid (gameContents pb)} {t : Tid} {a : Nat}

/-- **What a step of the service is for the game**: nothing, one step of a program, or the return of one. -/
inductive GameStep (s s' : ServiceState Tid (gameContents pb)) : Prop
  | silent : ServiceState.Silent s s' → GameStep s s'
  | exec (t : Tid) (c : Callback) (a : Nat) (op : GameOp) (ops : List GameOp) (sent : Option (Nat × SendBufferRef)) :
      s.Inside t c a (op :: ops) → s'.Inside t c a ops → s.game.exec a op = some (s'.game, sent) →
      (∀ u, u ≠ t → (s'.workers u).task = (s.workers u).task) →
      (∀ b, (s'.session b).history.parted = (s.session b).history.parted) → GameStep s s'
  | ret (t : Tid) (c : Callback) (a : Nat) : s.Inside t c a [] → (s'.workers t).task.callback = none →
      s'.game = s.game → (∀ u, u ≠ t → (s'.workers u).task = (s.workers u).task) →
      (∀ b, (s'.session b).history.parted =
        (s.session b).history.parted + if c = .onDisconnected ∧ b = a then 1 else 0) → GameStep s s'

theorem gameStep_of_calls (h : s.Calls s') : GameStep s s' := by
  rcases h with h | ⟨t, c, a, prog, hin, out, hstep, hran⟩
  · exact .silent h
  · rcases gameContents_step hstep with ⟨rfl, hout, hsame⟩ | ⟨op, ops, sent, rfl, hout, hexec⟩
    · refine .ret t c a hin (by rw [hran.thread, hout]; rfl) (hran.contents.trans hsame) hran.others (fun b => ?_)
      rw [hran.parted, hout]
      simp
    · refine .exec t c a op ops sent hin (by rw [ServiceState.Inside, hran.thread, hout]; rfl) ?_ hran.others
        (fun b => ?_)
      · show GameState.exec s.contents a op = some (s'.contents, sent)
        rw [hran.contents]
        exact hexec
      · rw [hran.parted, hout]
        simp

/-- The programs are those of the virtual functions, and the players those of their sessions. -/
structure GameInv (s : ServiceState Tid (gameContents pb)) : Prop where
  progs : ∀ t c a prog, s.Inside t c a prog → c.Has prog
  owned : s.game.Owned

theorem inside_unique {c c' : Callback} {a' : Nat} {prog prog' : List GameOp} (h : s.Inside t c a prog)
    (h' : s.Inside t c' a' prog') : c' = c ∧ a' = a ∧ prog' = prog := by
  have heq := Option.some.inj (h'.symm.trans h)
  simpa only [Prod.mk.injEq] using heq

theorem inside_of_others {u : Tid} {c : Callback} {prog : List GameOp} (h : (s'.workers u).task = (s.workers u).task) :
    s'.Inside u c a prog ↔ s.Inside u c a prog := by
  rw [ServiceState.Inside, h]
  rfl

variable [DecidableEq Tid]

theorem GameInv.step (h : GameInv s) (hs : GameStep s s') : GameInv s' := by
  cases hs with
  | silent hs =>
    refine ⟨fun t c a prog hin => ?_, ?_⟩
    · rcases hs.threads t with ht | ⟨-, hb⟩
      · exact h.progs t c a prog (ht.symm.trans hin)
      · exact has_of_begins (hb c a prog hin)
    · rw [ServiceState.game, hs.contents]
      exact h.owned
  | exec t c a op ops sent hin hin' hexec hothers hp =>
    refine ⟨fun u c' a' prog hu => ?_, (GameState.exec_effect hexec).owned h.owned⟩
    by_cases hut : u = t
    · subst hut
      obtain ⟨rfl, rfl, rfl⟩ := inside_unique hin' hu
      exact (h.progs _ _ _ _ hin).tail
    · exact h.progs u _ _ _ ((inside_of_others (hothers u hut)).1 hu)
  | ret t c a hin hout hg hothers hp =>
    refine ⟨fun u c' a' prog hu => ?_, by rw [hg]; exact h.owned⟩
    by_cases hut : u = t
    · subst hut
      rw [ServiceState.Inside, hout] at hu
      cases hu
    · exact h.progs u _ _ _ ((inside_of_others (hothers u hut)).1 hu)

/-! ## How far `OnDisconnected` has come -/

/-- `OnDisconnected` of session `a` has no more left than this, or has returned. -/
def Past (s : ServiceState Tid (gameContents pb)) (a : Nat) (rest : List GameOp) : Prop :=
  0 < (s.session a).history.parted ∨ ∃ t prog, s.Inside t .onDisconnected a prog ∧ prog <:+ rest

variable {rest : List GameOp}

omit [DecidableEq Tid] in
theorem Past.mono {rest' : List GameOp} (h : Past s a rest) (hr : rest <:+ rest') : Past s a rest' := by
  rcases h with h | ⟨t, prog, hin, hp⟩
  · exact .inl h
  · exact .inr ⟨t, prog, hin, hp.trans hr⟩

theorem Past.step (h : Past s a rest) (hs : GameStep s s') : Past s' a rest := by
  cases hs with
  | silent hs =>
    rcases h with h | ⟨t, prog, hin, hp⟩
    · exact .inl (by rwa [hs.parted])
    · rcases hs.threads t with ht | ⟨hn, -⟩
      · exact .inr ⟨t, prog, ht.trans hin, hp⟩
      · rw [ServiceState.Inside, hn] at hin
        cases hin
  | exec t c b op ops sent hin hin' hexec hothers hparted =>
    rcases h with h | ⟨u, prog, hu, hp⟩
    · exact .inl (by rwa [hparted])
    · by_cases hut : u = t
      · subst hut
        obtain ⟨rfl, rfl, rfl⟩ := inside_unique hin hu
        exact .inr ⟨u, ops, hin', (List.suffix_cons op ops).trans hp⟩
      · exact .inr ⟨u, prog, (inside_of_others (hothers u hut)).2 hu, hp⟩
  | ret t c b hin hout hg hothers hparted =>
    rcases h with h | ⟨u, prog, hu, hp⟩
    · exact .inl (by rw [hparted]; omega)
    · by_cases hut : u = t
      · subst hut
        obtain ⟨rfl, rfl, rfl⟩ := inside_unique hin hu
        exact .inl (by rw [hparted, if_pos ⟨rfl, rfl⟩]; omega)
      · exact .inr ⟨u, prog, (inside_of_others (hothers u hut)).2 hu, hp⟩

/-- Where `OnDisconnected` has come to it was before, or it has just made the step to it. -/
theorem past_of_step {first : GameOp} (h : Past s' a rest) (hs : GameStep s s') (hI : GameInv s)
    (hrest : first :: rest <:+ GameSession.onDisconnected) :
    Past s a rest ∨ ∃ t sent, s.Inside t .onDisconnected a (first :: rest) ∧
      s.game.exec a first = some (s'.game, sent) := by
  cases hs with
  | silent hs =>
    rcases h with h | ⟨t, prog, hin, hp⟩
    · exact .inl (.inl (by rwa [← hs.parted]))
    · rcases hs.threads t with ht | ⟨-, hb⟩
      · exact .inl (.inr ⟨t, prog, ht.symm.trans hin, hp⟩)
      · -- it has just been called, and all of it is left
        obtain rfl : prog = GameSession.onDisconnected := hb _ _ _ hin
        have := hp.length_le
        have := hrest.length_le
        simp only [List.length_cons] at this
        omega
  | exec t c b op ops sent hin hin' hexec hothers hparted =>
    rcases h with h | ⟨u, prog, hu, hp⟩
    · exact .inl (.inl (by rwa [← hparted]))
    · by_cases hut : u = t
      · subst hut
        obtain ⟨rfl, rfl, rfl⟩ := inside_unique hin' hu
        have hall : op :: prog <:+ GameSession.onDisconnected := hI.progs _ _ _ _ hin
        by_cases hlen : prog.length < rest.length
        · refine .inl (.inr ⟨u, op :: prog, hin, ?_⟩)
          exact List.suffix_of_suffix_length_le hall ((List.suffix_cons _ _).trans hrest) hlen
        · obtain rfl : prog = rest := hp.eq_of_length_le (Nat.le_of_not_lt hlen)
          obtain ⟨rfl, -⟩ := List.cons.inj
            ((List.suffix_of_suffix_length_le hall hrest (Nat.le_refl _)).eq_of_length rfl)
          exact .inr ⟨u, sent, hin, hexec⟩
      · exact .inl (.inr ⟨u, prog, (inside_of_others (hothers u hut)).1 hu, hp⟩)
  | ret t c b hin hout hg hothers hparted =>
    rcases h with h | ⟨u, prog, hu, hp⟩
    · by_cases hc : c = .onDisconnected ∧ a = b
      · obtain ⟨rfl, rfl⟩ := hc
        exact .inl (.inr ⟨t, [], hin, List.nil_suffix⟩)
      · rw [hparted, if_neg hc] at h
        exact .inl (.inl h)
    · by_cases hut : u = t
      · subst hut
        rw [ServiceState.Inside, hout] at hu
        cases hu
      · exact .inl (.inr ⟨u, prog, (inside_of_others (hothers u hut)).1 hu, hp⟩)

omit [DecidableEq Tid] in
/-- The game changes only by a step of a program. -/
theorem GameStep.game (hs : GameStep s s') : s'.game = s.game ∨ ∃ t c a op ops, s.Inside t c a (op :: ops) ∧
    s'.Inside t c a ops ∧ GameState.Effect s.game s'.game a op := by
  cases hs with
  | silent hs => exact .inl hs.contents
  | exec t c a op ops sent hin hin' hexec =>
    exact .inr ⟨t, c, a, op, ops, hin, hin', GameState.exec_effect hexec⟩
  | ret t c a hin hout hg => exact .inl hg

/-! ## Every run -/

variable [Fintype Tid] {type : ServiceType} {junk : Nat → BYTE}
  {ok : ServiceState Tid (gameContents pb) → ServiceAct Tid SendBufferRef → ServiceState Tid (gameContents pb) → Prop}

omit [DecidableEq Tid] [Fintype Tid] in
theorem gameInv_start : GameInv (serviceState₀ (gameContents pb) gameState₀ : ServiceState Tid _) where
  progs t c a prog hin := by cases hin
  owned a := ⟨fun _ hp => (by cases hp), fun _ hc => (by cases hc)⟩

theorem GameReach.inv (hs : Reach (serviceStep type junk) ok
    (serviceState₀ (gameContents pb) gameState₀) s) : GameInv s := by
  refine hs.inv (P := fun s : ServiceState Tid (gameContents pb) => GameInv s) gameInv_start
    (fun s act s' hr h he _ => ?_)
  exact h.step (gameStep_of_calls (ServiceState.serviceStep_calls (ServiceReach.inv hr).life he))

end Geon
