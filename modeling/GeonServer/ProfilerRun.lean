import GeonServer.CheckCycle
/-!
# ProfilerRun — the history misses no cycle

Only the id on top of a stack is recorded under the new one, and only a new pair is checked.  But each id of a stack is
the one above it or leads to it in the history (`LockStackOk.chain`), so everything a push adds to what the threads have done
is a chain of the history (`TransGen`), and what is recorded has been checked when it was new.
-/
namespace Geon

open Digraph Function Lts Relation

variable {Tid Name : Type} [DecidableEq Tid] [DecidableEq Name]

/-- **The invariant of the profiler**: the ids are 0, 1, … in the order of the names, and the history has been checked. -/
structure Profiled (p : DeadLockProfiler Name) : Prop where
  ids : p.nameToId.map Prod.snd = List.range p.nameToId.length
  names : (p.nameToId.map Prod.fst).Nodup
  wf : p.lockHistory.Wf p.nameToId.length
  acyclic : Acyclic p.lockHistory.Edge

/-- A thread's `LLockStack` has the ids of the names it holds, each under the next in the history or equal to it. -/
structure LockStackOk (p : DeadLockProfiler Name) (lockStack : List Nat) (names : List Name) : Prop where
  held : List.Forall₂ (fun name lockId => p.nameToId.lookup name = some lockId) names lockStack
  chain : lockStack.IsChain (fun a b => b = a ∨ p.lockHistory.Edge b a)

/-- The second profiler knows what the first does. -/
structure Extends (p p' : DeadLockProfiler Name) : Prop where
  lookup : ∀ name lockId, p.nameToId.lookup name = some lockId → p'.nameToId.lookup name = some lockId
  edge : ∀ a b, p.lockHistory.Edge a b → p'.lockHistory.Edge a b

variable {p p' : DeadLockProfiler Name} {lockStack : List Nat} {names : List Name} {name : Name} {lockId : Nat}

omit [DecidableEq Name] in
theorem profiled_new : Profiled (.new : DeadLockProfiler Name) where
  ids := rfl
  names := .nil
  wf := ⟨fun _ _ h => absurd h List.not_mem_nil, fun _ _ h => absurd h List.not_mem_nil,
    fun _ h => absurd h List.not_mem_nil⟩
  acyclic := acyclic_of_ends (fun _ _ h => absurd h List.not_mem_nil)

theorem Extends.refl (p : DeadLockProfiler Name) : Extends p p := ⟨fun _ _ h => h, fun _ _ h => h⟩

theorem LockStackOk.mono (h : LockStackOk p lockStack names) (he : Extends p p') : LockStackOk p' lockStack names :=
  ⟨h.held.imp (fun _ _ hl => he.lookup _ _ hl), h.chain.imp (fun _ _ hab => hab.imp id (he.edge _ _))⟩

/-! ## The ids -/

theorem Profiled.lt (h : Profiled p) (hl : p.nameToId.lookup name = some lockId) : lockId < p.nameToId.length := by
  obtain ⟨before, after, hsplit, -⟩ := List.lookup_eq_some_iff.1 hl
  have hmem : lockId ∈ p.nameToId.map Prod.snd := by
    rw [hsplit]
    simp
  rw [h.ids] at hmem
  exact List.mem_range.1 hmem

/-- **An id is that of one name.** -/
theorem Profiled.unique (h : Profiled p) {name' : Name} (hl : p.nameToId.lookup name = some lockId)
    (hl' : p.nameToId.lookup name' = some lockId) : name = name' := by
  obtain ⟨before, after, hsplit, -⟩ := List.lookup_eq_some_iff.1 hl
  obtain ⟨before', after', hsplit', -⟩ := List.lookup_eq_some_iff.1 hl'
  have hm : (name, lockId) ∈ p.nameToId := by
    rw [hsplit]
    simp
  have hm' : (name', lockId) ∈ p.nameToId := by
    rw [hsplit']
    simp
  have hnodup : (p.nameToId.map Prod.snd).Nodup := h.ids ▸ List.nodup_range
  exact congrArg Prod.fst (List.inj_on_of_nodup_map hnodup hm hm' rfl)

/-- `PushLock` finds the name's id, or issues the next one. -/
theorem Profiled.lockId_spec (h : Profiled p) (name : Name) :
    Profiled (p.lockId name).2 ∧ Extends p (p.lockId name).2 ∧
      (p.lockId name).2.nameToId.lookup name = some (p.lockId name).1 ∧
      (p.lockId name).2.lockHistory = p.lockHistory := by
  cases hl : p.nameToId.lookup name with
  | some lockId =>
    simp only [DeadLockProfiler.lockId, hl]
    exact ⟨h, .refl p, trivial, trivial⟩
  | none =>
    simp only [DeadLockProfiler.lockId, hl]
    have hfresh : name ∉ p.nameToId.map Prod.fst := fun hmem => by
      obtain ⟨⟨other, lockId⟩, hentry, rfl⟩ := List.mem_map.1 hmem
      have := List.lookup_eq_none_iff.1 hl _ hentry
      simp at this
    refine ⟨⟨?_, ?_, ⟨fun a b hab => ?_, fun a b hab => ?_, h.wf.irrefl⟩, h.acyclic⟩,
      ⟨fun other lockId ho => ?_, fun _ _ hab => hab⟩, ?_, trivial⟩
    · simp only [List.map_append, List.map_cons, List.map_nil, List.length_append, List.length_cons, List.length_nil,
        List.range_succ, h.ids]
    · simp only [List.map_append, List.map_cons, List.map_nil]
      exact List.nodup_append.2 ⟨h.names, List.nodup_singleton _, fun a ha b hb hab => by
        rw [List.mem_singleton.1 hb] at hab
        exact hfresh (hab ▸ ha)⟩
    · have := h.wf.left a b hab
      simp only [List.length_append]
      omega
    · have := h.wf.right a b hab
      simp only [List.length_append]
      omega
    · simp only [List.lookup_append, ho, Option.some_or]
    · simp only [List.lookup_append, hl, Option.none_or, List.lookup_cons_self]

/-! ## The history -/

/-- Everything in a stack is its top or leads to it. -/
theorem LockStackOk.reaches_top {top : Nat} {rest : List Nat} (h : LockStackOk p (top :: rest) names) :
    ∀ x ∈ top :: rest, ReflTransGen p.lockHistory.Edge x top := by
  have hchain := h.chain
  clear h
  induction rest generalizing top with
  | nil =>
    intro x hx
    rw [List.mem_singleton.1 hx]
  | cons next rest ih =>
    intro x hx
    obtain ⟨hstep, hrest⟩ := List.isChain_cons_cons.1 hchain
    rcases List.mem_cons.1 hx with rfl | hx
    · exact .refl
    · have hnext := ih hrest x hx
      rcases hstep with rfl | hedge
      · exact hnext
      · exact hnext.tail hedge

/-- The history with a pair more. -/
theorem edge_insert (lockHistory : LockHistory) (prevId lockId a b : Nat) :
    LockHistory.Edge (update lockHistory prevId ((lockHistory prevId).orderedInsert (· ≤ ·) lockId)) a b ↔
      (a = prevId ∧ b = lockId) ∨ lockHistory.Edge a b := by
  unfold LockHistory.Edge
  by_cases hap : a = prevId
  · subst hap
    rw [update_self, List.mem_orderedInsert]
    simp
  · rw [update_of_ne hap]
    simp [hap]

theorem LockHistory.Wf.insert {lockHistory : LockHistory} {lockCount prevId lockId : Nat}
    (h : lockHistory.Wf lockCount) (hprev : prevId < lockCount) (hid : lockId < lockCount) (hne : lockId ≠ prevId) :
    LockHistory.Wf (update lockHistory prevId ((lockHistory prevId).orderedInsert (· ≤ ·) lockId)) lockCount where
  left a b hab := by
    rcases (edge_insert ..).1 hab with ⟨rfl, -⟩ | hab
    · exact hprev
    · exact h.left a b hab
  right a b hab := by
    rcases (edge_insert ..).1 hab with ⟨-, rfl⟩ | hab
    · exact hid
    · exact h.right a b hab
  irrefl a haa := by
    rcases (edge_insert ..).1 haa with ⟨rfl, heq⟩ | haa
    · exact hne heq.symm
    · exact h.irrefl a haa

/-- The pairs the history has after a push that returned: those it had, and the new id on the top of the stack. -/
def Pushed (lockHistory : LockHistory) (lockStack : List Nat) (lockId a b : Nat) : Prop :=
  lockHistory.Edge a b ∨ lockStack.head? = some a ∧ b = lockId ∧ a ≠ lockId

/-- The new id is the top, or the pair is known: the history stays what it is. -/
theorem pushed_iff_edge {lockHistory : LockHistory}
    (hold : ∀ top ∈ lockStack.head?, lockId = top ∨ lockHistory.Edge top lockId) (a b : Nat) :
    Pushed lockHistory lockStack lockId a b ↔ lockHistory.Edge a b := by
  refine ⟨?_, .inl⟩
  rintro (hab | ⟨htop, rfl, hne⟩)
  · exact hab
  · exact (hold a htop).resolve_left (Ne.symm hne)

theorem edge_insert_iff_pushed (lockHistory : LockHistory) {prevId lockId : Nat} (hne : lockId ≠ prevId)
    (rest : List Nat) (a b : Nat) :
    LockHistory.Edge (update lockHistory prevId ((lockHistory prevId).orderedInsert (· ≤ ·) lockId)) a b ↔
      Pushed lockHistory (prevId :: rest) lockId a b := by
  rw [edge_insert, or_comm, Pushed, List.head?_cons, Option.some_inj]
  refine or_congr_right ⟨fun ⟨ha, hb⟩ => ⟨ha.symm, hb, fun h => hne (h ▸ ha)⟩, fun ⟨ha, hb, _⟩ => ⟨ha.symm, hb⟩⟩

/-- What a `PushLock` comes to. -/
def PushDone (p : DeadLockProfiler Name) (lockStack : List Nat) (name : Name) :
    Except (ProfilerCrash Name) (DeadLockProfiler Name × List Nat) → Prop
  | .ok (p', lockStack') => Profiled p' ∧ Extends p p' ∧ p'.nameToId.lookup name = some (p.lockId name).1 ∧
      lockStack' = (p.lockId name).1 :: lockStack ∧
      ∀ a b, p'.lockHistory.Edge a b ↔ Pushed p.lockHistory lockStack (p.lockId name).1 a b
  | .error cause => (∃ printed, cause = .DEADLOCK_DETECTED printed) ∧
      ¬ Acyclic (Pushed p.lockHistory lockStack (p.lockId name).1)

theorem pushDone_old (h : Profiled p) (name : Name) (hold : ∀ top ∈ lockStack.head?,
    (p.lockId name).1 = top ∨ p.lockHistory.Edge top (p.lockId name).1) :
    PushDone p lockStack name (.ok ((p.lockId name).2, (p.lockId name).1 :: lockStack)) := by
  obtain ⟨hq, hext, hlookup, hhistory⟩ := h.lockId_spec name
  refine ⟨hq, hext, hlookup, rfl, fun a b => ?_⟩
  rw [hhistory]
  exact (pushed_iff_edge hold a b).symm

/-- **`PushLock`** records the new id on the top of the stack, and crashes exactly when that closes a cycle. -/
theorem pushLock_spec (h : Profiled p) (hs : LockStackOk p lockStack names) (name : Name) :
    PushDone p lockStack name (p.pushLock lockStack name) := by
  obtain ⟨hq, hext, hlookup, hhistory⟩ := h.lockId_spec name
  unfold DeadLockProfiler.pushLock
  cases lockStack with
  | nil => exact pushDone_old h name (fun _ htop => by cases htop)
  | cons prevId rest =>
    dsimp only
    by_cases heq : (p.lockId name).1 = prevId
    · rw [if_neg (not_not.2 heq)]
      exact pushDone_old h name (fun top htop => .inl (heq.trans (Option.some.inj htop)))
    rw [if_pos heq]
    by_cases hold : (p.lockId name).1 ∈ (p.lockId name).2.lockHistory prevId
    · rw [if_pos hold]
      rw [hhistory] at hold
      exact pushDone_old h name (fun top htop => .inr (Option.some.inj htop ▸ hold))
    rw [if_neg hold]
    have hprev : prevId < (p.lockId name).2.nameToId.length := by
      cases (hs.mono hext).held with
      | cons hl _ => exact hq.lt hl
    have hwf := hq.wf.insert hprev (hq.lt hlookup) heq
    have hedge := edge_insert_iff_pushed (p.lockId name).2.lockHistory heq rest
    rw [hhistory] at hwf hedge ⊢
    have hchecked := checkCycle_spec hwf
    split
    · rename_i hc
      rw [hc] at hchecked
      exact ⟨⟨hq.ids, hq.names, hwf, hchecked⟩, ⟨hext.lookup, fun a b hab => (hedge a b).2 (.inl hab)⟩, hlookup, rfl,
        hedge⟩
    · rename_i stop hc
      rw [hc] at hchecked
      cases stop with
      | crash printed =>
        exact ⟨⟨_, rfl⟩, fun hacyclic => hchecked.not_acyclic (hacyclic.mono (fun a b hab => (hedge a b).1 hab))⟩
      | undefined => exact hchecked.elim
      | outOfFuel => exact hchecked.elim

/-- `PopLock` of the name pushed last takes its id off the stack. -/
theorem popLock_spec (hs : LockStackOk p lockStack (name :: names)) :
    ∃ rest, p.popLock lockStack name = .ok (p, rest) ∧ LockStackOk p rest names := by
  obtain ⟨held, chain⟩ := hs
  cases held with
  | @cons _ top _ rest hl hrest =>
    refine ⟨rest, ?_, hrest, chain.tail⟩
    simp [DeadLockProfiler.popLock, DeadLockProfiler.index, hl]

/-! ## The run -/

/-- **The invariant of a run**: the history is part of what the threads have done, which is made of chains of it. -/
structure ProfilerInv (s : ProfilerState Tid Name) : Prop where
  profiled : Profiled s.profiler
  stack : ∀ t, LockStackOk s.profiler (s.lockStack t) (s.names t)
  recorded : ∀ a b, s.profiler.lockHistory.Edge a b → (a, b) ∈ s.pushedOn
  pushed : ∀ a b, (a, b) ∈ s.pushedOn → TransGen s.profiler.lockHistory.Edge a b
  crash : ∀ cause, s.crashed = some cause → ∃ printed, cause = .DEADLOCK_DETECTED printed

variable {s s' : ProfilerState Tid Name}

omit [DecidableEq Tid] in
theorem profilerInv₀ : ProfilerInv (profilerState₀ : ProfilerState Tid Name) where
  profiled := profiled_new
  stack t := ⟨.nil, .nil⟩
  recorded a b h := by cases h
  pushed a b h := by cases h
  crash cause h := by cases h

omit [DecidableEq Tid] in
theorem ProfilerInv.acyclic (h : ProfilerInv s) : Acyclic (fun a b => (a, b) ∈ s.pushedOn) :=
  h.profiled.acyclic.of_transGen h.pushed

theorem mem_pairsOn {lockStack : List Nat} {lockId a b : Nat} :
    (a, b) ∈ pairsOn lockStack lockId ↔ b = lockId ∧ a ∈ lockStack ∧ a ≠ lockId := by
  simp only [pairsOn, List.mem_map, List.mem_filter, decide_eq_true_eq, Prod.mk.injEq]
  constructor
  · rintro ⟨x, ⟨hx, hne⟩, rfl, rfl⟩
    exact ⟨rfl, hx, hne⟩
  · rintro ⟨rfl, hx, hne⟩
    exact ⟨a, ⟨hx, hne⟩, rfl, rfl⟩

omit [DecidableEq Tid] in
/-- What a push records is part of what the threads have done after it. -/
theorem ProfilerInv.pushed_recorded (h : ProfilerInv s) {a b : Nat}
    (hab : Pushed s.profiler.lockHistory lockStack lockId a b) : (a, b) ∈ s.pushedOn ++ pairsOn lockStack lockId := by
  rcases hab with hab | ⟨htop, rfl, hne⟩
  · exact List.mem_append_left _ (h.recorded a b hab)
  · exact List.mem_append_right _ (mem_pairsOn.2 ⟨rfl, List.mem_of_mem_head? htop, hne⟩)

/-- **A push that returns**: whatever is below the new id leads to it. -/
theorem LockStackOk.push (h : LockStackOk p lockStack names) (he : Extends p p')
    (hlookup : p'.nameToId.lookup name = some lockId)
    (htop : ∀ top ∈ lockStack.head?, lockId ≠ top → p'.lockHistory.Edge top lockId) :
    LockStackOk p' (lockId :: lockStack) (name :: names) ∧
      ∀ a b, (a, b) ∈ pairsOn lockStack lockId → TransGen p'.lockHistory.Edge a b := by
  have h' := h.mono he
  constructor
  · refine ⟨.cons hlookup h'.held, ?_⟩
    cases lockStack with
    | nil => exact .singleton _
    | cons top rest =>
      refine .cons_cons ?_ h'.chain
      by_cases heq : top = lockId
      · exact .inl heq
      · exact .inr (htop top rfl (Ne.symm heq))
  · intro a b hab
    obtain ⟨rfl, ha, hne⟩ := mem_pairsOn.1 hab
    cases lockStack with
    | nil => cases ha
    | cons top rest =>
      have hreach := h'.reaches_top a ha
      by_cases heq : top = b
      · subst heq
        exact (reflTransGen_iff_eq_or_transGen.1 hreach).resolve_left (Ne.symm hne)
      · exact .tail' hreach (htop top rfl (Ne.symm heq))

theorem profilerStep_alive {a : ProfilerAct Tid Name} (he : profilerStep s a = some s') : s.crashed = none := by
  unfold profilerStep at he
  split at he
  · cases he
  · exact not_not.1 ‹_›

/-- **A push**: it crashes, or the new id is on the thread's stack. -/
theorem ProfilerInv.push_cases (h : ProfilerInv s) {t : Tid} (he : profilerStep s (.pushLock t name) = some s') :
    (∃ printed, s' = { s with crashed := some (.DEADLOCK_DETECTED printed) }) ∨
    ∃ p, Profiled p ∧ Extends s.profiler p ∧ p.nameToId.lookup name = some (s.profiler.lockId name).1 ∧
      (∀ a b, p.lockHistory.Edge a b ↔
        Pushed s.profiler.lockHistory (s.lockStack t) (s.profiler.lockId name).1 a b) ∧
      s' = { s with
        profiler := p
        lockStack := update s.lockStack t ((s.profiler.lockId name).1 :: s.lockStack t)
        names := update s.names t (name :: s.names t)
        pushedOn := s.pushedOn ++ pairsOn (s.lockStack t) (s.profiler.lockId name).1 } := by
  have hpush := pushLock_spec h.profiled (h.stack t) name
  unfold profilerStep at he
  split at he
  · cases he
  simp only at he
  split at he
  · rename_i cause herr
    rw [herr] at hpush
    obtain ⟨⟨printed, rfl⟩, -⟩ := hpush
    exact .inl ⟨printed, (Option.some.inj he).symm⟩
  · rename_i q lockStack hok
    rw [hok] at hpush
    obtain ⟨hq, hext, hlookup, rfl, hedge⟩ := hpush
    exact .inr ⟨q, hq, hext, hlookup, hedge, (Option.some.inj he).symm⟩

/-- **A pop** of the name pushed last takes its id off the stack. -/
theorem ProfilerInv.pop_cases (h : ProfilerInv s) {t : Tid} (he : profilerStep s (.popLock t name) = some s')
    (hhead : (s.names t).head? = some name) :
    ∃ rest, LockStackOk s.profiler rest (s.names t).tail ∧
      s' = { s with lockStack := update s.lockStack t rest, names := update s.names t (s.names t).tail } := by
  have hs := h.stack t
  rw [List.eq_cons_of_mem_head? hhead] at hs
  obtain ⟨rest, hpop, hrest⟩ := popLock_spec hs
  unfold profilerStep at he
  split at he
  · cases he
  simp only [hpop] at he
  exact ⟨rest, hrest, (Option.some.inj he).symm⟩

theorem ProfilerInv.step {a : ProfilerAct Tid Name} (h : ProfilerInv s) (he : profilerStep s a = some s')
    (hok : Lifo s a s') : ProfilerInv s' := by
  cases a with
  | pushLock t name =>
    rcases h.push_cases he with ⟨printed, rfl⟩ | ⟨q, hq, hext, hlookup, hedge, rfl⟩
    · exact ⟨h.profiled, h.stack, h.recorded, h.pushed, fun other ho => ⟨printed, (Option.some.inj ho).symm⟩⟩
    have hnew := (h.stack t).push hext hlookup (fun top htop hne => (hedge ..).2 (.inr ⟨htop, rfl, Ne.symm hne⟩))
    refine ⟨hq, fun u => ?_, fun a b hab => h.pushed_recorded ((hedge a b).1 hab), fun a b hab => ?_, h.crash⟩
    · by_cases hut : u = t
      · subst hut
        simp only [update_self]
        exact hnew.1
      · simp only [update_of_ne hut]
        exact (h.stack u).mono hext
    · rcases List.mem_append.1 hab with hab | hab
      · exact TransGen.mono hext.edge _ _ (h.pushed a b hab)
      · exact hnew.2 a b hab
  | popLock t name =>
    obtain ⟨rest, hrest, rfl⟩ := h.pop_cases he hok
    refine ⟨h.profiled, fun u => ?_, h.recorded, h.pushed, h.crash⟩
    by_cases hut : u = t
    · subst hut
      simp only [update_self]
      exact hrest
    · simp only [update_of_ne hut]
      exact h.stack u

theorem profilerInv_of_reach (h : Reach profilerStep Lifo profilerState₀ s) : ProfilerInv s :=
  h.inv profilerInv₀ (fun _ _ _ _ hi he hok => hi.step he hok)

/-- **The profiler misses no cycle of ids**: what the threads have pushed on top of what, anywhere in their stacks and
over the whole run, is acyclic as long as no call has crashed. -/
theorem pushed_acyclic (h : Reach profilerStep Lifo (profilerState₀ : ProfilerState Tid Name) s) :
    Acyclic (fun a b => (a, b) ∈ s.pushedOn) :=
  (profilerInv_of_reach h).acyclic

theorem pushed_acyclic_two :
    ∃ s, run profilerStep Lifo profilerState₀ [.pushLock Two.one 7, .pushLock .one 5, .pushLock .one 3, .popLock .one 3,
        .pushLock .two 5, .pushLock .two 3] = some s ∧ Acyclic (fun a b => (a, b) ∈ s.pushedOn) := by
  obtain ⟨s, hs, hr⟩ := reach_of_run profilerStep Lifo profilerState₀ [.pushLock Two.one 7, .pushLock .one 5,
    .pushLock .one 3, .popLock .one 3, .pushLock .two 5, .pushLock .two 3] (by decide)
  exact ⟨s, hs, pushed_acyclic hr⟩

/-- **Nor does it cry wolf**: a push crashes exactly when what it adds closes a cycle. -/
theorem push_crashes_iff (h : Reach profilerStep Lifo (profilerState₀ : ProfilerState Tid Name) s)
    (hc : s.crashed = none) (t : Tid) (name : Name) :
    (∃ cause, s.profiler.pushLock (s.lockStack t) name = .error cause) ↔
      ¬ Acyclic (fun a b => (a, b) ∈ s.pushedOn ++ pairsOn (s.lockStack t) (s.profiler.lockId name).1) := by
  have hi := profilerInv_of_reach h
  have hpush := pushLock_spec hi.profiled (hi.stack t) name
  cases hp : s.profiler.pushLock (s.lockStack t) name with
  | error cause =>
    rw [hp] at hpush
    exact iff_of_true ⟨cause, rfl⟩ (fun hacyclic => hpush.2 (hacyclic.mono (fun a b hab => hi.pushed_recorded hab)))
  | ok done =>
    refine iff_of_false (fun ⟨_, herr⟩ => by cases herr) (not_not.2 ?_)
    have he : profilerStep s (.pushLock t name) = some { s with
        profiler := done.1
        lockStack := update s.lockStack t done.2
        names := update s.names t (name :: s.names t)
        pushedOn := s.pushedOn ++ pairsOn (s.lockStack t) (s.profiler.lockId name).1 } := by
      simp [profilerStep, hc, hp]
    exact (hi.step he trivial).acyclic

/-! ## A lock that is held already -/

/-- Everything in a stack but its top leads to the top by a chain that is not empty. -/
theorem LockStackOk.leads_to_top {top : Nat} (h : LockStackOk p lockStack names) (htop : lockStack.head? = some top)
    (hmem : lockId ∈ lockStack) (hne : lockId ≠ top) : TransGen p.lockHistory.Edge lockId top := by
  obtain ⟨rest, rfl⟩ := List.head?_eq_some_iff.1 htop
  exact (reflTransGen_iff_eq_or_transGen.1 (h.reaches_top lockId hmem)).resolve_left (Ne.symm hne)

theorem lockId_of_lookup (hl : p.nameToId.lookup name = some lockId) : p.lockId name = (lockId, p) := by
  simp only [DeadLockProfiler.lockId, hl]

/-- **A lock that is held is pushed again exactly when it is the one taken last**: under any other lock it closes a cycle
with the chain that leads from it to the top of the stack. -/
theorem push_again_iff (h : Reach profilerStep Lifo (profilerState₀ : ProfilerState Tid Name) s) {t : Tid}
    (hname : s.profiler.nameToId.lookup name = some lockId) (hmem : lockId ∈ s.lockStack t) :
    (∃ done, s.profiler.pushLock (s.lockStack t) name = .ok done) ↔ (s.lockStack t).head? = some lockId := by
  have hi := profilerInv_of_reach h
  have hpush := pushLock_spec hi.profiled (hi.stack t) name
  obtain ⟨top, htop⟩ : ∃ top, (s.lockStack t).head? = some top := by
    cases hs : s.lockStack t with
    | nil =>
      rw [hs] at hmem
      cases hmem
    | cons top rest => exact ⟨top, rfl⟩
  have hpushed : Pushed s.profiler.lockHistory (s.lockStack t) (s.profiler.lockId name).1 =
      Pushed s.profiler.lockHistory (s.lockStack t) lockId := by rw [lockId_of_lookup hname]
  cases hp : s.profiler.pushLock (s.lockStack t) name with
  | ok done =>
    refine iff_of_true ⟨done, rfl⟩ ?_
    rw [hp] at hpush
    obtain ⟨hq, -, -, -, hedge⟩ := hpush
    by_contra hother
    have hne : lockId ≠ top := fun heq => hother (heq ▸ htop)
    have hold := TransGen.mono (fun a b hab => (hedge a b).2 (.inl hab)) _ _
      ((hi.stack t).leads_to_top htop hmem hne)
    refine hq.acyclic lockId (hold.tail ((hedge top lockId).2 ?_))
    rw [hpushed]
    exact .inr ⟨htop, rfl, Ne.symm hne⟩
  | error cause =>
    refine iff_of_false (fun ⟨_, herr⟩ => by cases herr) (fun hlast => ?_)
    rw [hp] at hpush
    refine hpush.2 (hi.profiled.acyclic.mono (fun a b hab => ?_))
    rw [hpushed] at hab
    exact (pushed_iff_edge (fun top htop => .inl (Option.some.inj (hlast.symm.trans htop))) a b).1 hab

/-- A thread holds lock 7 and, under it, lock 5, and takes lock 5 again. -/
theorem push_again_iff_top : ∃ s,
    run profilerStep Lifo profilerState₀ [.pushLock Two.one 7, .pushLock Two.one 5] = some s ∧ s.lockStack .one = [1, 0] ∧
    ∃ done, s.profiler.pushLock (s.lockStack .one) 5 = .ok done := by
  obtain ⟨s, hs, hr⟩ := reach_of_run profilerStep Lifo profilerState₀ [.pushLock Two.one 7, .pushLock Two.one 5] (by decide)
  have hend : (run profilerStep Lifo profilerState₀ [.pushLock Two.one 7, .pushLock Two.one 5]).map (fun s =>
      (s.profiler.nameToId.lookup 5, s.lockStack .one)) = some (some 1, [1, 0]) := by decide
  rw [hs, Option.map_some, Option.some.injEq, Prod.mk.injEq] at hend
  refine ⟨s, hs, hend.2, (push_again_iff hr hend.1 ?_).2 ?_⟩
  · rw [hend.2]
    exact List.mem_cons_self
  · rw [hend.2]
    rfl

/-- **Lock 7, lock 5 and lock 7 again** by one thread alone. -/
theorem push_again_crashes : ∃ s, Reach profilerStep Lifo (profilerState₀ : ProfilerState Two Nat) s ∧
    s.crashed = none ∧ s.profiler.nameToId.lookup 7 = some 0 ∧ 0 ∈ s.lockStack .one ∧
    s.profiler.pushLock (s.lockStack .one) 7 =
      .error (.DEADLOCK_DETECTED [(some 5, some 7), (some 7, some 5)]) := by
  refine ⟨_, .of_run [.pushLock .one 7, .pushLock .one 5] profilerState₀ _ rfl .start, rfl, rfl, ?_, rfl⟩
  exact List.mem_cons_of_mem _ List.mem_cons_self

end Geon
