import GeonServer.JobTimer
/-!
# TimerRun — where the jobs of the timer are

Each job that `Reserve` was called with is in one place: in the hands of the call, in `_items`, in the batch of the one
thread that is distributing, pushed on its owner's queue, or dropped with its owner dead (`Conserved`).  What is popped is popped in
the order of `executeTick`, and the next batch only after all of this one has been delivered, so two jobs that were
together in `_items` are never delivered the wrong way round (`TimerReach.popped_order`).
-/
namespace Geon
namespace JobTimer

open Lts Function

variable {Heap Tid Q F : Type} [DecidableEq Q] [DecidableEq Tid] [Fintype Tid]
  {PQ : PriorityQueue Heap (TimerItem Q F) TimerItem.lt}

/-! ## What a step does -/

omit [Fintype Tid] in
/-- A step of the queues is its thread's, on one queue, and takes nothing out of the history of `_jobs`. -/
theorem jobStep_set {J : Type} {s s' : JobState Tid Q J} {a : JobAct Tid Q J} (he : jobStep s a = some s') :
    ∃ th q jq g, s' = s.set (thread a) th q jq g ∧ (s.queues q).entered <+: jq.entered := by
  cases a with
  | push t q job pushOnly =>
    obtain ⟨-, he⟩ := Option.ite_none_right_eq_some.1 he
    cases he
    exact ⟨_, _, _, _, rfl, List.prefix_refl _⟩
  | pop t =>
    simp only [jobStep] at he
    split at he <;> cases he
    exact ⟨_, _, _, _, rfl, List.prefix_refl _⟩
  | finish t =>
    simp only [jobStep] at he
    split at he <;> cases he
    exact ⟨_, _, _, _, rfl, List.prefix_refl _⟩
  | next t timeout =>
    cases hf : (s.threads t).frames with
    | nil =>
      simp only [jobStep, jobNext, hf] at he
      cases he
    | cons f fs =>
      cases f <;> simp only [jobStep, jobNext, hf] at he
      case pushing =>
        cases he
        exact ⟨_, _, _, _, rfl, List.prefix_append _ _⟩
      case first => split at he <;> cases he <;> exact ⟨_, _, _, _, rfl, List.prefix_refl _⟩
      case popped =>
        cases he
        exact ⟨_, _, _, _, rfl, List.prefix_refl _⟩
      case popAll =>
        cases he
        exact ⟨_, _, _, _, rfl, List.prefix_refl _⟩
      case batch =>
        split at he
        · split at he <;> cases he
          exact ⟨_, _, _, _, rfl, List.prefix_refl _⟩
        · split at he <;> cases he <;> exact ⟨_, _, _, _, rfl, List.prefix_refl _⟩
      case inJob => cases he
      case tick => split at he <;> cases he <;> exact ⟨_, _, _, _, rfl, List.prefix_refl _⟩

/-- **What the steps are.** -/
inductive Effect (PQ : PriorityQueue Heap (TimerItem Q F) TimerItem.lt) (s : TimerState Heap Tid Q F) :
    TimerAct Tid Q F → TimerState Heap Tid Q F → Prop
  | queue {act : TimerAct Tid Q F} {a : JobAct Tid Q (Job Q F)} {queues : JobState Tid Q (Job Q F)} :
    (∀ item items, s.timers (thread a) ≠ .inPush item items) → jobStep s.queues a = some queues →
    Effect PQ s act { s with queues := queues }
  | enter {t : Tid} {timeout : Bool} {item : TimerItem Q F} {items : List (TimerItem Q F)}
    {queues : JobState Tid Q (Job Q F)} :
    s.timers t = .inPush item items → jobStep s.queues (.next t timeout) = some queues →
    Effect PQ s (.pushNext t timeout) { s with
      queues := queues, timers := update s.timers t (.deliver items),
      refs := fun q => s.refs q + item.jobData.holds q, delivered := s.delivered ++ [⟨item, some s.clock⟩] }
  | reserve {t : Tid} {tickAfter : BitVec 64} {owner : Q} {job : Job Q F} :
    s.timers t = .idle → (∀ q ∈ job.captures, 0 < strong PQ s q) →
    Effect PQ s (.reserve t tickAfter owner job) { s with
      timers := update s.timers t (.reserve (s.clock + tickAfter) ⟨owner, job, s.clock, tickAfter⟩),
      calls := s.calls ++ [⟨owner, job, s.clock, tickAfter⟩] }
  | insert {t : Tid} {executeTick : BitVec 64} {jobData : JobData Q F} :
    s.timers t = .reserve executeTick jobData →
    Effect PQ s (.next t) { s with
      items := PQ.push s.items ⟨executeTick, jobData, s.reserved.length⟩,
      reserved := s.reserved ++ [⟨executeTick, jobData, s.reserved.length⟩], timers := update s.timers t .idle }
  | turnedAway {t : Tid} {now : BitVec 64} : s.distributing = true → Effect PQ s (.distribute t now) s
  | gate {t : Tid} {now : BitVec 64} : s.timers t = .idle → s.distributing = false →
    Effect PQ s (.distribute t now) { s with distributing := true, timers := update s.timers t (.collect now) }
  | collect {t : Tid} {now : BitVec 64} {due : List (TimerItem Q F) × Heap} : s.timers t = .collect now →
    due = PQ.takeOut (fun item => !decide (now < item.executeTick)) s.items →
    Effect PQ s (.next t) { s with
      items := due.2, popped := s.popped ++ due.1, timers := update s.timers t (.deliver due.1) }
  | leave {t : Tid} : s.timers t = .deliver [] →
    Effect PQ s (.next t) { s with distributing := false, timers := update s.timers t .idle }
  | lock {t : Tid} {item : TimerItem Q F} {items : List (TimerItem Q F)} : s.timers t = .deliver (item :: items) →
    0 < strong PQ s item.jobData.owner → Effect PQ s (.next t) { s with timers := update s.timers t (.push item items) }
  | drop {t : Tid} {item : TimerItem Q F} {items : List (TimerItem Q F)} : s.timers t = .deliver (item :: items) →
    strong PQ s item.jobData.owner = 0 →
    Effect PQ s (.next t) { s with
      delivered := s.delivered ++ [⟨item, none⟩], timers := update s.timers t (.deliver items) }
  | push {t : Tid} {item : TimerItem Q F} {items : List (TimerItem Q F)} {queues : JobState Tid Q (Job Q F)} :
    s.timers t = .push item items →
    jobStep s.queues (.push t item.jobData.owner (some item.jobData.job) true) = some queues →
    Effect PQ s (.next t) { s with queues := queues, timers := update s.timers t (.inPush item items) }
  | tick {clock : BitVec 64} : s.clock.toNat ≤ clock.toNat → Effect PQ s (.tick clock) { s with clock := clock }
  | hold {q : Q} {n : Nat} : n = 0 ∨ 0 < strong PQ s q → Effect PQ s (.hold q n) { s with refs := update s.refs q n }

omit [DecidableEq Q] in
theorem TimerPc.eq_idle {pc : TimerPc Q F} (h : pc.isIdle = true) : pc = .idle := by
  cases pc with
  | idle => rfl
  | _ => cases h

theorem timerNext_effect {s s' : TimerState Heap Tid Q F} {t : Tid} (he : timerNext PQ s t = some s') :
    Effect PQ s (.next t) s' := by
  unfold timerNext at he
  cases hpc : s.timers t with
  | idle =>
    rw [hpc] at he
    cases he
  | reserve executeTick jobData =>
    rw [hpc] at he
    cases he
    exact .insert hpc
  | collect now =>
    rw [hpc] at he
    cases he
    exact .collect hpc rfl
  | deliver items =>
    cases items with
    | nil =>
      rw [hpc] at he
      obtain ⟨-, he⟩ := Option.ite_none_right_eq_some.1 he
      cases he
      exact .leave hpc
    | cons item items =>
      rw [hpc] at he
      obtain ⟨-, he⟩ := Option.ite_none_right_eq_some.1 he
      by_cases halive : 0 < strong PQ s item.jobData.owner
      · rw [if_pos halive] at he
        cases he
        exact .lock hpc halive
      · rw [if_neg halive] at he
        cases he
        exact .drop hpc (Nat.eq_zero_of_not_pos halive)
  | push item items =>
    rw [hpc] at he
    obtain ⟨queues, hqueues, rfl⟩ := Option.map_eq_some_iff.1 he
    exact .push hpc hqueues
  | inPush item items =>
    rw [hpc] at he
    cases he

theorem timerPushNext_effect {s s' : TimerState Heap Tid Q F} {t : Tid} {timeout : Bool}
    (he : timerPushNext s t timeout = some s') : Effect PQ s (.pushNext t timeout) s' := by
  unfold timerPushNext at he
  cases hpc : s.timers t with
  | inPush item items =>
    rw [hpc] at he
    obtain ⟨queues, hqueues, rfl⟩ := Option.map_eq_some_iff.1 he
    exact .enter hpc hqueues
  | deliver items =>
    rw [hpc] at he
    obtain ⟨queues, hqueues, rfl⟩ := Option.map_eq_some_iff.1 he
    refine .queue (a := .next t timeout) (fun item items h => ?_) hqueues
    have hdeliver := hpc.symm.trans h
    cases hdeliver
  | _ =>
    rw [hpc] at he
    cases he

theorem timerStep_effect {s s' : TimerState Heap Tid Q F} {a : TimerAct Tid Q F} (he : timerStep PQ s a = some s') :
    Effect PQ s a s' := by
  cases a with
  | queue a =>
    obtain ⟨hidle, he⟩ := Option.ite_none_right_eq_some.1 he
    obtain ⟨queues, hqueues, rfl⟩ := Option.map_eq_some_iff.1 he
    refine .queue (fun item items h => ?_) hqueues
    rw [h] at hidle
    cases hidle
  | reserve t tickAfter owner job =>
    obtain ⟨⟨hidle, -, halive⟩, he⟩ := Option.ite_none_right_eq_some.1 he
    cases he
    exact .reserve (TimerPc.eq_idle hidle) halive
  | distribute t now =>
    obtain ⟨⟨hidle, -⟩, he⟩ := Option.ite_none_right_eq_some.1 he
    by_cases hd : s.distributing = true
    · rw [if_pos hd] at he
      cases he
      exact .turnedAway hd
    · rw [if_neg hd] at he
      cases he
      exact .gate (TimerPc.eq_idle hidle) (Bool.eq_false_iff.2 hd)
  | next t => exact timerNext_effect he
  | pushNext t timeout => exact timerPushNext_effect he
  | tick clock =>
    obtain ⟨hle, he⟩ := Option.ite_none_right_eq_some.1 he
    cases he
    exact .tick hle
  | hold q n =>
    obtain ⟨hn, he⟩ := Option.ite_none_right_eq_some.1 he
    cases he
    exact .hold hn

/-! ## What is in the timer -/

/-- The job of a `Reserve` that the thread has not put into `_items` yet. -/
def TimerPc.inHand : TimerPc Q F → List (JobData Q F)
  | .reserve _ jobData => [jobData]
  | .idle | .collect _ | .deliver _ | .push _ _ | .inPush _ _ => []

/-- The items a thread has popped and not delivered. -/
def TimerPc.batch : TimerPc Q F → List (TimerItem Q F)
  | .idle | .reserve _ _ | .collect _ => []
  | .deliver items => items
  | .push item items | .inPush item items => item :: items

/-- 1 for a thread that has come through `_distributing`. -/
def TimerPc.inside : TimerPc Q F → Nat
  | .idle | .reserve _ _ => 0
  | .collect _ | .deliver _ | .push _ _ | .inPush _ _ => 1

def pushed (delivered : List (Delivery Q F)) : List (TimerItem Q F) :=
  (delivered.filter (fun d => d.pushedAt.isSome)).map Delivery.item

def dropped (delivered : List (Delivery Q F)) : List (TimerItem Q F) :=
  (delivered.filter (fun d => !d.pushedAt.isSome)).map Delivery.item

/-- What `Reserve` was called with is in the hands of a thread or has come into `_items`. -/
def Called (timers : Tid → TimerPc Q F) (reserved : List (TimerItem Q F)) (calls : List (JobData Q F)) : Prop :=
  ∑ t, ((timers t).inHand : Multiset (JobData Q F)) + (reserved.map TimerItem.jobData : List (JobData Q F)) = calls

/-- What has come into `_items` is there or has been popped; each has its number. -/
structure Counted (PQ : PriorityQueue Heap (TimerItem Q F) TimerItem.lt) (s : TimerState Heap Tid Q F) : Prop where
  items : PQ.items s.items + (s.popped : Multiset (TimerItem Q F)) = s.reserved
  numbers : s.reserved.map TimerItem.number = List.range s.reserved.length

/-- One thread at a time distributes, and what has been popped and is not in its batch has been delivered. -/
structure Gate (distributing : Bool) (timers : Tid → TimerPc Q F) (popped : List (TimerItem Q F))
    (delivered : List (Delivery Q F)) : Prop where
  gate : tally TimerPc.inside timers = if distributing = true then 1 else 0
  running : ∀ t, (timers t).inside = 1 → popped = delivered.map Delivery.item ++ (timers t).batch
  resting : (∀ t, (timers t).inside = 0) → popped = delivered.map Delivery.item

variable {s s' : TimerState Heap Tid Q F} {a : TimerAct Tid Q F}

omit [DecidableEq Q] in
theorem inHand_update (timers : Tid → TimerPc Q F) (t : Tid) (pc : TimerPc Q F) :
    ∑ u, ((update timers t pc u).inHand : Multiset (JobData Q F)) + (timers t).inHand =
      ∑ u, ((timers u).inHand : Multiset (JobData Q F)) + pc.inHand :=
  sum_update (fun pc => (TimerPc.inHand pc : Multiset (JobData Q F))) timers (Finset.mem_univ t) pc

omit [DecidableEq Q] in
theorem Called.goto {timers : Tid → TimerPc Q F} {reserved : List (TimerItem Q F)} {calls : List (JobData Q F)}
    (hC : Called timers reserved calls) {t : Tid} {pc pc' : TimerPc Q F} (ht : timers t = pc)
    (hsame : pc'.inHand = pc.inHand) : Called (update timers t pc') reserved calls := by
  subst ht
  have hsum : ∑ u, ((update timers t pc' u).inHand : Multiset (JobData Q F)) =
      ∑ u, ((timers u).inHand : Multiset (JobData Q F)) :=
    Finset.sum_congr rfl (fun u _ => by rw [apply_update_of_eq TimerPc.inHand timers hsame])
  rw [Called, hsum]
  exact hC

theorem Called.step (hC : Called s.timers s.reserved s.calls) (he : Effect PQ s a s') :
    Called s'.timers s'.reserved s'.calls := by
  cases he with
  | @reserve t tickAfter owner job ht =>
    have hsum := inHand_update s.timers t (.reserve (s.clock + tickAfter) ⟨owner, job, s.clock, tickAfter⟩)
    rw [ht, TimerPc.inHand, TimerPc.inHand, Multiset.coe_nil, add_zero] at hsum
    rw [Called, hsum, ← Multiset.coe_add, ← hC]
    ac_rfl
  | @insert t executeTick jobData ht =>
    have hsum := inHand_update s.timers t .idle
    rw [ht, TimerPc.inHand, TimerPc.inHand, Multiset.coe_nil, add_zero] at hsum
    rw [Called, List.map_append, ← Multiset.coe_add, ← hC, ← hsum]
    ac_rfl
  | enter ht => exact hC.goto ht rfl
  | gate ht => exact hC.goto ht rfl
  | collect ht => exact hC.goto ht rfl
  | leave ht => exact hC.goto ht rfl
  | lock ht => exact hC.goto ht rfl
  | drop ht => exact hC.goto ht rfl
  | push ht => exact hC.goto ht rfl
  | _ => exact hC

theorem Counted.step (hC : Counted PQ s) (he : Effect PQ s a s') : Counted PQ s' := by
  cases he with
  | insert ht =>
    refine ⟨?_, ?_⟩
    · rw [PQ.items_push, Multiset.cons_add, hC.items, Multiset.cons_coe, Multiset.coe_eq_coe]
      exact (List.perm_append_singleton _ _).symm
    · rw [List.map_append, hC.numbers, List.length_append, List.length_singleton, List.range_succ]
      rfl
  | @collect t now due ht hdue =>
    refine ⟨?_, hC.numbers⟩
    have htaken : (due.1 : Multiset (TimerItem Q F)) + PQ.items due.2 = PQ.items s.items := by
      rw [hdue]
      exact PriorityQueue.takeOut_items s.items
    rw [← Multiset.coe_add, add_comm (s.popped : Multiset (TimerItem Q F)), ← add_assoc, add_comm (PQ.items due.2),
      htaken, hC.items]
  | _ => exact ⟨hC.items, hC.numbers⟩

section Gate

variable {distributing : Bool} {timers : Tid → TimerPc Q F} {popped popped' : List (TimerItem Q F)}
  {delivered delivered' : List (Delivery Q F)} {t u : Tid} {pc pc' : TimerPc Q F}

omit [DecidableEq Q] in
theorem Gate.others (hG : Gate distributing timers popped delivered) (ht : (timers t).inside = 1) (hu : u ≠ t) :
    (timers u).inside = 0 := by
  apply eq_zero_of_tally_le_one TimerPc.inside timers _ (ht ▸ Nat.one_pos) hu
  rw [hG.gate]
  split <;> omega

omit [DecidableEq Q] in
theorem Gate.goOn (hG : Gate distributing timers popped delivered) (ht : timers t = pc) (hin : pc.inside = 1)
    (hin' : pc'.inside = 1) (hpopped : popped = delivered.map Delivery.item ++ pc.batch →
      popped' = delivered'.map Delivery.item ++ pc'.batch) :
    Gate distributing (update timers t pc') popped' delivered' := by
  subst ht
  have htally := tally_update TimerPc.inside timers t pc'
  have hgate := hG.gate
  refine ⟨by omega, fun u hu => ?_, fun hnone => ?_⟩
  · by_cases hut : u = t
    · subst hut
      rw [update_self]
      exact hpopped (hG.running u hin)
    · rw [update_of_ne hut, hG.others hin hut] at hu
      cases hu
  · have hzero := hnone t
    rw [update_self, hin'] at hzero
    cases hzero

omit [DecidableEq Q] in
theorem Gate.outside (hG : Gate distributing timers popped delivered) (ht : timers t = pc) (hout : pc.inside = 0)
    (hout' : pc'.inside = 0) : Gate distributing (update timers t pc') popped delivered := by
  subst ht
  have hsame : ∀ u, (update timers t pc' u).inside = (timers u).inside :=
    apply_update_of_eq TimerPc.inside timers (hout'.trans hout.symm)
  have htally : tally TimerPc.inside (update timers t pc') = tally TimerPc.inside timers :=
    Finset.sum_congr rfl (fun u _ => hsame u)
  refine ⟨htally.trans hG.gate, fun u hu => ?_, fun hnone => ?_⟩
  · have hut : u ≠ t := by
      rintro rfl
      rw [hsame, hout] at hu
      cases hu
    rw [update_of_ne hut]
    exact hG.running u ((hsame u).symm.trans hu)
  · exact hG.resting (fun u => (hsame u).symm.trans (hnone u))

omit [DecidableEq Q] in
theorem Gate.enter (hG : Gate false timers popped delivered) (ht : timers t = pc) (hout : pc.inside = 0)
    (hin' : pc'.inside = 1) (hbatch : pc'.batch = []) : Gate true (update timers t pc') popped delivered := by
  subst ht
  have htally := tally_update TimerPc.inside timers t pc'
  have hgate := hG.gate
  rw [if_neg Bool.false_ne_true] at hgate
  have hnone := (tally_eq_zero _ _).1 hgate
  refine ⟨?_, fun u hu => ?_, fun hall => ?_⟩
  · rw [if_pos rfl]
    omega
  · by_cases hut : u = t
    · subst hut
      rw [update_self, hbatch, List.append_nil]
      exact hG.resting hnone
    · rw [update_of_ne hut, hnone u] at hu
      cases hu
  · have hzero := hall t
    rw [update_self, hin'] at hzero
    cases hzero

omit [DecidableEq Q] in
theorem Gate.leave (hG : Gate distributing timers popped delivered) (ht : timers t = pc) (hin : pc.inside = 1)
    (hbatch : pc.batch = []) (hout' : pc'.inside = 0) : Gate false (update timers t pc') popped delivered := by
  subst ht
  have hall : ∀ u, (update timers t pc' u).inside = 0 := by
    intro u
    by_cases hut : u = t
    · rw [hut, update_self, hout']
    · rw [update_of_ne hut]
      exact hG.others hin hut
  refine ⟨(tally_eq_zero _ _).2 hall, fun u hu => ?_, fun _ => ?_⟩
  · rw [hall u] at hu
    cases hu
  · rw [hG.running t hin, hbatch, List.append_nil]

end Gate

theorem Gate.step (hG : Gate s.distributing s.timers s.popped s.delivered) (he : Effect PQ s a s') :
    Gate s'.distributing s'.timers s'.popped s'.delivered := by
  cases he with
  | enter ht => exact hG.goOn ht rfl rfl (fun h => by simp [h, TimerPc.batch])
  | reserve ht => exact hG.outside ht rfl rfl
  | insert ht => exact hG.outside ht rfl rfl
  | gate ht hd =>
    rw [hd] at hG
    exact hG.enter ht rfl rfl rfl
  | collect ht => exact hG.goOn ht rfl rfl (fun h => by simp [h, TimerPc.batch])
  | leave ht => exact hG.leave ht rfl rfl rfl
  | lock ht => exact hG.goOn ht rfl rfl id
  | drop ht => exact hG.goOn ht rfl rfl (fun h => by simp [h, TimerPc.batch])
  | push ht => exact hG.goOn ht rfl rfl id
  | _ => exact hG

/-! ## What has been pushed -/

/-- The jobs pushed on a queue, as they came into its `_jobs`. -/
def pushedOn (delivered : List (Delivery Q F)) (q : Q) : List (Option (Job Q F)) :=
  ((pushed delivered).filter (fun item => decide (item.jobData.owner = q))).map (fun item => some item.jobData.job)

/-- A thread between the `fetch_add` and the `_jobs.Push` of `Distribute` is so in its frames, and what has been pushed
came into `_jobs` in this order. -/
structure Pushes (timers : Tid → TimerPc Q F) (queues : JobState Tid Q (Job Q F)) (delivered : List (Delivery Q F)) :
    Prop where
  frames : ∀ t item items, timers t = .inPush item items → ∃ prevCount fs,
    (queues.threads t).frames = .pushing item.jobData.owner (some item.jobData.job) true prevCount :: fs
  entered : ∀ q, List.Sublist (pushedOn delivered q) ((queues.queues q).entered.map Prod.snd)

section Pushes

variable {timers : Tid → TimerPc Q F} {queues queues' : JobState Tid Q (Job Q F)} {delivered : List (Delivery Q F)}
  {item : TimerItem Q F} {items : List (TimerItem Q F)} {t : Tid} {pc : TimerPc Q F}

omit [DecidableEq Q] in
theorem pushed_some (delivered : List (Delivery Q F)) (item : TimerItem Q F) (clock : BitVec 64) :
    pushed (delivered ++ [⟨item, some clock⟩]) = pushed delivered ++ [item] := by
  simp [pushed]

omit [DecidableEq Q] in
theorem pushed_none (delivered : List (Delivery Q F)) (item : TimerItem Q F) :
    pushed (delivered ++ [⟨item, none⟩]) = pushed delivered := by
  simp [pushed]

omit [DecidableEq Q] in
theorem dropped_some (delivered : List (Delivery Q F)) (item : TimerItem Q F) (clock : BitVec 64) :
    dropped (delivered ++ [⟨item, some clock⟩]) = dropped delivered := by
  simp [dropped]

omit [DecidableEq Q] in
theorem dropped_none (delivered : List (Delivery Q F)) (item : TimerItem Q F) :
    dropped (delivered ++ [⟨item, none⟩]) = dropped delivered ++ [item] := by
  simp [dropped]

omit [Fintype Tid] in
theorem Pushes.goto (hP : Pushes timers queues delivered) (hpc : ∀ item items, pc ≠ .inPush item items) :
    Pushes (update timers t pc) queues delivered := by
  refine ⟨fun u item items hu => ?_, hP.entered⟩
  by_cases hut : u = t
  · rw [hut, update_self] at hu
    exact absurd hu (hpc item items)
  · rw [update_of_ne hut] at hu
    exact hP.frames u item items hu

omit [Fintype Tid] in
/-- A step of the queues keeps the frames of the other threads and what has come into `_jobs`. -/
theorem Pushes.queue (hP : Pushes timers queues delivered) {b : JobAct Tid Q (Job Q F)}
    (hstep : jobStep queues b = some queues') :
    (∀ u, u ≠ thread b → (queues'.threads u).frames = (queues.threads u).frames) ∧
    ∀ q, List.Sublist (pushedOn delivered q) ((queues'.queues q).entered.map Prod.snd) := by
  obtain ⟨th, p, jq, g, rfl, hentered⟩ := jobStep_set hstep
  refine ⟨fun u hu => ?_, fun q => ?_⟩
  · rw [JobState.set_threads, update_of_ne hu]
  · rw [JobState.set_queues]
    by_cases hqp : q = p
    · subst hqp
      rw [update_self]
      exact (hP.entered q).trans (hentered.map _).sublist
    · rw [update_of_ne hqp]
      exact hP.entered q

omit [Fintype Tid] in
/-- **`_jobs.Push` of `Distribute`**: the job comes into the `_jobs` of its owner. -/
theorem Pushes.enter (hP : Pushes timers queues delivered) (ht : timers t = .inPush item items) {timeout : Bool}
    (hstep : jobStep queues (.next t timeout) = some queues') (clock : BitVec 64) :
    Pushes (update timers t (.deliver items)) queues' (delivered ++ [⟨item, some clock⟩]) := by
  obtain ⟨prevCount, fs, hf⟩ := hP.frames t item items ht
  refine ⟨fun u item' items' hu => ?_, fun q => ?_⟩
  · by_cases hut : u = t
    · rw [hut, update_self] at hu
      cases hu
    · rw [update_of_ne hut] at hu
      rw [(hP.queue hstep).1 u hut]
      exact hP.frames u item' items' hu
  · simp only [jobStep, jobNext, hf, Option.some.injEq] at hstep
    subst hstep
    have hpushed : pushedOn (delivered ++ [⟨item, some clock⟩]) q =
        pushedOn delivered q ++ if item.jobData.owner = q then [some item.jobData.job] else [] := by
      unfold pushedOn
      rw [pushed_some]
      by_cases hq : item.jobData.owner = q <;> simp [hq]
    rw [hpushed, JobState.set_queues]
    by_cases hq : item.jobData.owner = q
    · subst hq
      rw [if_pos rfl, update_self, List.map_append]
      exact (hP.entered _).append (List.Sublist.refl _)
    · rw [if_neg hq, update_of_ne (Ne.symm hq), List.append_nil]
      exact hP.entered q

omit [Fintype Tid] in
/-- **`Distribute` calls `Push`.** -/
theorem Pushes.push (hP : Pushes timers queues delivered)
    (hstep : jobStep queues (.push t item.jobData.owner (some item.jobData.job) true) = some queues') :
    Pushes (update timers t (.inPush item items)) queues' delivered := by
  obtain ⟨hframes, hentered⟩ := hP.queue hstep
  refine ⟨fun u item' items' hu => ?_, hentered⟩
  by_cases hut : u = t
  · subst hut
    rw [update_self] at hu
    cases hu
    obtain ⟨-, hstep⟩ := Option.ite_none_right_eq_some.1 hstep
    cases hstep
    rw [JobState.set_threads, update_self]
    exact ⟨_, _, rfl⟩
  · rw [update_of_ne hut] at hu
    rw [hframes u hut]
    exact hP.frames u item' items' hu

end Pushes

theorem Pushes.step (hP : Pushes s.timers s.queues s.delivered) (he : Effect PQ s a s') :
    Pushes s'.timers s'.queues s'.delivered := by
  cases he with
  | @queue _ b queues hpc hstep =>
    obtain ⟨hframes, hentered⟩ := hP.queue hstep
    refine ⟨fun u item items hu => ?_, hentered⟩
    have hut : u ≠ thread b := by
      rintro rfl
      exact hpc item items hu
    dsimp only
    rw [hframes u hut]
    exact hP.frames u item items hu
  | enter ht hstep => exact hP.enter ht hstep s.clock
  | reserve => exact hP.goto (fun _ _ h => by cases h)
  | insert => exact hP.goto (fun _ _ h => by cases h)
  | gate => exact hP.goto (fun _ _ h => by cases h)
  | collect => exact hP.goto (fun _ _ h => by cases h)
  | leave => exact hP.goto (fun _ _ h => by cases h)
  | lock => exact hP.goto (fun _ _ h => by cases h)
  | @drop t item items ht =>
    have hgoto : Pushes (update s.timers t (.deliver items)) s.queues s.delivered := hP.goto (fun _ _ h => by cases h)
    refine ⟨hgoto.frames, fun q => ?_⟩
    unfold pushedOn
    rw [pushed_none]
    exact hP.entered q
  | push ht hstep => exact hP.push hstep
  | _ => exact hP

/-! ## What is dead -/

omit [DecidableEq Tid] in
/-- A queue is dead when nothing outside the timer, no item and no thread holds it. -/
theorem strong_eq_zero {q : Q} : strong PQ s q = 0 ↔ s.refs q = 0 ∧
    (∀ item ∈ PQ.items s.items, item.jobData.holds q = 0) ∧ ∀ t, (s.timers t).holds q = 0 := by
  unfold strong
  rw [Nat.add_eq_zero_iff, Nat.add_eq_zero_iff, tally_eq_zero, Multiset.sum_eq_zero_iff, and_assoc]
  simp only [Multiset.mem_map, forall_exists_index, and_imp, forall_apply_eq_imp_iff₂]

omit [DecidableEq Tid] [Fintype Tid] in
theorem TimerPc.holds_eq_zero_iff {pc : TimerPc Q F} {q : Q} : pc.holds q = 0 ↔
    pc.locked q = 0 ∧ ∀ jobData ∈ pc.entries, jobData.holds q = 0 := by
  unfold TimerPc.holds
  rw [Nat.add_eq_zero_iff, List.sum_eq_zero_iff, List.forall_mem_map]

/-- **The dead stay dead.** -/
theorem strong_zero (he : Effect PQ s a s') {q : Q} (hq : strong PQ s q = 0) : strong PQ s' q = 0 := by
  rw [strong_eq_zero] at hq ⊢
  obtain ⟨hrefs, hitems, htimers⟩ := hq
  -- whoever is alive is another queue
  have halive : ∀ p, 0 < strong PQ s p → p ≠ q := by
    rintro p hp rfl
    exact Nat.lt_irrefl _ (strong_eq_zero.2 ⟨hrefs, hitems, htimers⟩ ▸ hp)
  have hgoto : ∀ t pc, pc.holds q = 0 → ∀ u, (update s.timers t pc u).holds q = 0 := by
    intro t pc hpc u
    by_cases hut : u = t
    · rw [hut, update_self, hpc]
    · rw [update_of_ne hut]
      exact htimers u
  have hentries := fun {t pc} (ht : s.timers t = pc) => (TimerPc.holds_eq_zero_iff.1 (ht ▸ htimers t)).2
  cases he with
  | queue => exact ⟨hrefs, hitems, htimers⟩
  | enter ht =>
    obtain ⟨hitem, hrest⟩ := List.forall_mem_cons.1 (hentries ht)
    exact ⟨by dsimp only; omega, hitems, hgoto _ _ (TimerPc.holds_eq_zero_iff.2 ⟨rfl, hrest⟩)⟩
  | @reserve t tickAfter owner job ht hcaptures =>
    have hcount : job.captures.count q = 0 :=
      List.count_eq_zero_of_not_mem (fun hmem => halive q (hcaptures q hmem) rfl)
    exact ⟨hrefs, hitems, hgoto _ _ (TimerPc.holds_eq_zero_iff.2 ⟨rfl, List.forall_mem_singleton.2 hcount⟩)⟩
  | insert ht =>
    refine ⟨hrefs, fun item hitem => ?_, hgoto _ _ rfl⟩
    rw [PQ.items_push, Multiset.mem_cons] at hitem
    rcases hitem with rfl | hitem
    · exact hentries ht _ (List.mem_singleton_self _)
    · exact hitems item hitem
  | turnedAway => exact ⟨hrefs, hitems, htimers⟩
  | gate => exact ⟨hrefs, hitems, hgoto _ _ rfl⟩
  | @collect t now due ht hdue =>
    have htaken : (due.1 : Multiset (TimerItem Q F)) + PQ.items due.2 = PQ.items s.items := by
      rw [hdue]
      exact PriorityQueue.takeOut_items s.items
    rw [← htaken] at hitems
    refine ⟨hrefs, fun item hitem => hitems item (Multiset.mem_add.2 (.inr hitem)), hgoto _ _ ?_⟩
    refine TimerPc.holds_eq_zero_iff.2 ⟨rfl, List.forall_mem_map.2 (fun item hitem => ?_)⟩
    exact hitems item (Multiset.mem_add.2 (.inl (Multiset.mem_coe.2 hitem)))
  | leave => exact ⟨hrefs, hitems, hgoto _ _ rfl⟩
  | lock ht hlock =>
    have hall := hentries ht
    exact ⟨hrefs, hitems, hgoto _ _ (TimerPc.holds_eq_zero_iff.2 ⟨if_neg (halive _ hlock), hall⟩)⟩
  | drop ht =>
    obtain ⟨-, hrest⟩ := List.forall_mem_cons.1 (hentries ht)
    exact ⟨hrefs, hitems, hgoto _ _ (TimerPc.holds_eq_zero_iff.2 ⟨rfl, hrest⟩)⟩
  | @push t item items queues ht =>
    have hheld := htimers t
    rw [ht] at hheld
    exact ⟨hrefs, hitems, hgoto _ _ hheld⟩
  | tick => exact ⟨hrefs, hitems, htimers⟩
  | @hold p n hn =>
    refine ⟨?_, hitems, htimers⟩
    dsimp only
    by_cases hqp : q = p
    · subst hqp
      rw [update_self]
      exact hn.resolve_right (fun hp => halive q hp rfl)
    · rw [update_of_ne hqp, hrefs]

/-- What has been dropped had a dead owner. -/
def Expired (PQ : PriorityQueue Heap (TimerItem Q F) TimerItem.lt) (s : TimerState Heap Tid Q F) : Prop :=
  ∀ item ∈ dropped s.delivered, strong PQ s item.jobData.owner = 0

theorem Expired.step (hE : Expired PQ s) (he : Effect PQ s a s') : Expired PQ s' := by
  have hdead := fun q => strong_zero (q := q) he
  have hold : dropped s'.delivered = dropped s.delivered → Expired PQ s' := by
    intro hdropped item hitem
    rw [hdropped] at hitem
    exact hdead _ (hE item hitem)
  cases he with
  | enter => exact hold (dropped_some ..)
  | @drop t item items ht hzero =>
    intro item' hitem
    rw [dropped_none] at hitem
    rcases List.mem_append.1 hitem with hitem | hitem
    · exact hdead _ (hE item' hitem)
    · rw [List.mem_singleton.1 hitem]
      exact hdead _ hzero
  | _ => exact hold rfl

/-! ## Runs -/

structure TimerInv (PQ : PriorityQueue Heap (TimerItem Q F) TimerItem.lt) (s : TimerState Heap Tid Q F) : Prop where
  called : Called s.timers s.reserved s.calls
  counted : Counted PQ s
  gate : Gate s.distributing s.timers s.popped s.delivered
  pushes : Pushes s.timers s.queues s.delivered
  expired : Expired PQ s

/-- **The step lemma.** -/
theorem TimerInv.step (hI : TimerInv PQ s) (he : timerStep PQ s a = some s') : TimerInv PQ s' := by
  have heffect := timerStep_effect he
  exact ⟨hI.called.step heffect, hI.counted.step heffect, hI.gate.step heffect, hI.pushes.step heffect, hI.expired.step heffect⟩

omit [DecidableEq Tid] in
theorem timerInv₀ : TimerInv PQ (timerState₀ PQ : TimerState Heap Tid Q F) where
  called := by
    have hnone : ∑ t, (((timerState₀ PQ : TimerState Heap Tid Q F).timers t).inHand : Multiset (JobData Q F)) = 0 :=
      Finset.sum_eq_zero (fun _ _ => rfl)
    rw [Called, hnone, zero_add]
    rfl
  counted := by
    refine ⟨?_, rfl⟩
    unfold timerState₀
    rw [PQ.items_empty]
    rfl
  gate := by
    refine ⟨?_, fun t ht => ?_, fun _ => rfl⟩
    · exact tally_const_zero _ _ rfl
    · cases ht
  pushes := by
    refine ⟨fun t item items ht => ?_, fun q => List.nil_sublist _⟩
    cases ht
  expired := fun item hitem => by cases hitem

/-- The states of the runs in which `Reserve` and `Distribute` are called by any thread at any time. -/
def TimerReach (PQ : PriorityQueue Heap (TimerItem Q F) TimerItem.lt) (s : TimerState Heap Tid Q F) : Prop :=
  Reach (timerStep PQ) Any (timerState₀ PQ) s

theorem TimerReach.timerInv (h : TimerReach PQ s) : TimerInv PQ s :=
  h.inv timerInv₀ (fun _ _ _ _ hI he _ => hI.step he)

omit [DecidableEq Q] [DecidableEq Tid] [Fintype Tid] in
theorem Counted.nodup (hC : Counted PQ s) : s.reserved.Nodup := by
  apply List.Nodup.of_map TimerItem.number
  rw [hC.numbers]
  exact List.nodup_range

omit [DecidableEq Q] [DecidableEq Tid] [Fintype Tid] in
theorem Counted.not_popped (hC : Counted PQ s) {item : TimerItem Q F} (hitem : item ∈ PQ.items s.items) :
    item ∉ s.popped := by
  intro hpopped
  have hnodup : (PQ.items s.items + (s.popped : Multiset (TimerItem Q F))).Nodup := by
    rw [hC.items]
    exact hC.nodup
  exact Multiset.disjoint_left.1 (Multiset.nodup_add.1 hnodup).2.2 hitem (Multiset.mem_coe.2 hpopped)

omit [DecidableEq Q] [DecidableEq Tid] [Fintype Tid] in
theorem Counted.mem_reserved (hC : Counted PQ s) {item : TimerItem Q F} (hitem : item ∈ PQ.items s.items) :
    item ∈ s.reserved := by
  rw [← Multiset.mem_coe, ← hC.items]
  exact Multiset.mem_add.2 (.inl hitem)

omit [DecidableEq Q] [DecidableEq Tid] [Fintype Tid] in
theorem TimerPc.inside_eq (pc : TimerPc Q F) : pc.inside = 0 ∨ pc.inside = 1 := by
  cases pc with
  | idle => exact .inl rfl
  | reserve => exact .inl rfl
  | _ => exact .inr rfl

omit [DecidableEq Q] [DecidableEq Tid] in
theorem Gate.delivered_first (hG : Gate s.distributing s.timers s.popped s.delivered) :
    s.delivered.map Delivery.item <+: s.popped := by
  by_cases hnone : ∀ t, (s.timers t).inside = 0
  · rw [hG.resting hnone]
  · obtain ⟨t, ht⟩ := not_forall.1 hnone
    rw [hG.running t ((TimerPc.inside_eq _).resolve_left ht)]
    exact List.prefix_append _ _

omit [DecidableEq Q] [DecidableEq Tid] in
theorem Gate.pushed_sublist (hG : Gate s.distributing s.timers s.popped s.delivered) :
    List.Sublist (pushed s.delivered) s.popped :=
  ((List.filter_sublist).map _).trans hG.delivered_first.sublist

omit [DecidableEq Q] [DecidableEq Tid] [Fintype Tid] in
theorem TimerPc.batch_eq_nil {pc : TimerPc Q F} (h : pc.inside = 0) : pc.batch = [] := by
  cases pc with
  | idle => rfl
  | reserve => rfl
  | _ => cases h

omit [DecidableEq Q] in
/-- What has been popped has been delivered or is in the batch of a thread. -/
theorem Gate.popped_eq (hG : Gate s.distributing s.timers s.popped s.delivered) : (s.popped : Multiset (TimerItem Q F)) =
    (s.delivered.map Delivery.item : List (TimerItem Q F)) + ∑ t, ((s.timers t).batch : Multiset (TimerItem Q F)) := by
  by_cases hnone : ∀ t, (s.timers t).inside = 0
  · rw [hG.resting hnone, Finset.sum_eq_zero, add_zero]
    intro t _
    rw [TimerPc.batch_eq_nil (hnone t), Multiset.coe_nil]
  · obtain ⟨t, ht⟩ := not_forall.1 hnone
    have hin := (TimerPc.inside_eq (s.timers t)).resolve_left ht
    rw [hG.running t hin, ← Multiset.coe_add, Finset.sum_eq_single t]
    · intro u _ hu
      rw [TimerPc.batch_eq_nil (hG.others hin hu), Multiset.coe_nil]
    · exact fun hmem => absurd (Finset.mem_univ t) hmem

omit [DecidableEq Q] in
theorem delivered_eq (delivered : List (Delivery Q F)) :
    ((delivered.map Delivery.item : List (TimerItem Q F)) : Multiset (TimerItem Q F)) =
      pushed delivered + dropped delivered := by
  unfold pushed dropped
  rw [Multiset.coe_add, ← List.map_append, Multiset.coe_eq_coe]
  exact ((List.filter_append_perm (fun d => d.pushedAt.isSome) delivered).map Delivery.item).symm

/-! ## The order -/

theorem pair_sublist_append {α : Type} {x y : α} {ys : List α} : ∀ {xs : List α}, List.Sublist [y, x] (xs ++ ys) →
    List.Sublist [y, x] xs ∨ (y ∈ xs ∧ x ∈ ys) ∨ List.Sublist [y, x] ys
  | [], h => .inr (.inr h)
  | z :: xs, h => by
    cases h with
    | cons _ h =>
      rcases pair_sublist_append h with h | ⟨hy, hx⟩ | h
      · exact .inl (h.cons z)
      · exact .inr (.inl ⟨List.mem_cons_of_mem z hy, hx⟩)
      · exact .inr (.inr h)
    | cons_cons _ h =>
      rcases List.mem_append.1 (List.singleton_sublist.1 h) with hx | hx
      · exact .inl ((List.singleton_sublist.2 hx).cons_cons y)
      · exact .inr (.inl ⟨List.mem_cons_self, hx⟩)

omit [DecidableEq Q] in
/-- The test of `Distribute`. -/
theorem due_iff {now : BitVec 64} {item : TimerItem Q F} :
    (!decide (now < item.executeTick)) = true ↔ item.executeTick ≤ now := by
  simp only [BitVec.lt_def, BitVec.le_def, Bool.not_eq_true', decide_eq_false_iff_not]
  omega

omit [DecidableEq Q] in
theorem due_of_not_lt {now : BitVec 64} (x y : TimerItem Q F) (hxy : ¬ TimerItem.lt x y)
    (hy : (!decide (now < y.executeTick)) = true) : (!decide (now < x.executeTick)) = true := by
  rw [due_iff] at hy ⊢
  simp only [TimerItem.lt, gt_iff_lt, BitVec.lt_def, BitVec.le_def] at hxy hy ⊢
  omega

/-- `x` is not popped after `y`, nor will it be. -/
structure Before (PQ : PriorityQueue Heap (TimerItem Q F) TimerItem.lt) (x y : TimerItem Q F)
    (s : TimerState Heap Tid Q F) : Prop where
  reserved : x ∈ s.reserved
  popped : ¬ List.Sublist [y, x] s.popped
  items : x ∈ PQ.items s.items → y ∈ PQ.items s.items

theorem Before.step {x y : TimerItem Q F} (hB : Before PQ x y s) (hC : Counted PQ s)
    (hlt : x.executeTick < y.executeTick) (he : Effect PQ s a s') : Before PQ x y s' := by
  cases he with
  | @insert t executeTick jobData ht =>
    refine ⟨List.mem_append.2 (.inl hB.reserved), hB.popped, fun hx => ?_⟩
    rw [PQ.items_push, Multiset.mem_cons] at hx ⊢
    rcases hx with rfl | hx
    · -- the new item has a number that `x` cannot have
      have hnumber := List.mem_map_of_mem (f := TimerItem.number) hB.reserved
      rw [hC.numbers, List.mem_range] at hnumber
      exact absurd hnumber (Nat.lt_irrefl _)
    · exact .inr (hB.items hx)
  | @collect t now due ht hdue =>
    refine ⟨hB.reserved, fun hsub => ?_, fun hx => ?_⟩
    · rcases pair_sublist_append hsub with hold | ⟨hy, hx⟩ | hnew
      · exact hB.popped hold
      · rw [hdue] at hx
        exact hC.not_popped (hB.items (PriorityQueue.mem_of_popWhile hx)) hy
      · rw [hdue] at hnew
        have hpair := List.pairwise_pair.1 ((PriorityQueue.takeOut_pairwise s.items).sublist hnew)
        exact hpair hlt
    · dsimp only at hx ⊢
      rw [hdue, PriorityQueue.takeOut_snd due_of_not_lt, Multiset.mem_filter, due_iff] at hx ⊢
      refine ⟨hB.items hx.1, fun hnow => hx.2 ?_⟩
      simp only [BitVec.le_def, BitVec.lt_def] at hnow hlt ⊢
      omega
  | _ => exact ⟨hB.reserved, hB.popped, hB.items⟩

/-- **The order of delivery**: of two jobs that were in `_items` together, the one that is due first is not pushed after
the other, in whatever way the run goes on. -/
theorem TimerInv.pushed_order (hI : TimerInv PQ s) {x y : TimerItem Q F} (hx : x ∈ PQ.items s.items)
    (hy : y ∈ PQ.items s.items) (hlt : x.executeTick < y.executeTick) (h : Reach (timerStep PQ) Any s s') :
    ¬ List.Sublist [y, x] (pushed s'.delivered) := by
  have hstart : Before PQ x y s := by
    refine ⟨hI.counted.mem_reserved hx, fun hsub => ?_, fun _ => hy⟩
    exact hI.counted.not_popped hy (hsub.subset List.mem_cons_self)
  have hboth : TimerInv PQ s' ∧ Before PQ x y s' := by
    refine Reach.inv (P := fun s' => TimerInv PQ s' ∧ Before PQ x y s') h ⟨hI, hstart⟩ ?_
    rintro u b u' - ⟨hIu, hBu⟩ he -
    exact ⟨hIu.step he, hBu.step hIu.counted hlt (timerStep_effect he)⟩
  exact fun hsub => hboth.2.popped (hsub.trans hboth.1.gate.pushed_sublist)

/-! ## Conservation -/

/-- **Where the jobs are**: every job that `Reserve` was called with is in the hands of that call or has come into
`_items`, once, and then it is in one of four places once: in `_items`, in the batch of the one thread that distributes,
pushed, as the `_jobs` of its owner show, or dropped with its owner dead. -/
structure Conserved (PQ : PriorityQueue Heap (TimerItem Q F) TimerItem.lt) (s : TimerState Heap Tid Q F) : Prop where
  called : ∑ t, ((s.timers t).inHand : Multiset (JobData Q F)) +
    (s.reserved.map TimerItem.jobData : List (JobData Q F)) = s.calls
  once : s.reserved.Nodup
  places : PQ.items s.items + ∑ t, ((s.timers t).batch : Multiset (TimerItem Q F)) + pushed s.delivered +
    dropped s.delivered = s.reserved
  one : ∀ t u, (s.timers t).inside = 1 → (s.timers u).inside = 1 → t = u
  entered : ∀ q, List.Sublist (pushedOn s.delivered q) ((s.queues.queues q).entered.map Prod.snd)
  expired : ∀ item ∈ dropped s.delivered, strong PQ s item.jobData.owner = 0

/-- A thread that has come through `_distributing` takes out of `_items` what is due there when it has the lock. -/
def Collects (PQ : PriorityQueue Heap (TimerItem Q F) TimerItem.lt) (s : TimerState Heap Tid Q F) : Prop :=
  ∀ t now, s.timers t = .collect now → ∃ s' items, timerStep PQ s (.next t) = some s' ∧ s'.timers t = .deliver items ∧
    (items : Multiset (TimerItem Q F)) = (PQ.items s.items).filter (fun item => item.executeTick ≤ now) ∧
    PQ.items s'.items = (PQ.items s.items).filter (fun item => ¬ item.executeTick ≤ now)

/-- Of two jobs in `_items` the one with the smaller `executeTick` is never pushed after the other. -/
def InOrder (PQ : PriorityQueue Heap (TimerItem Q F) TimerItem.lt) (s : TimerState Heap Tid Q F) : Prop :=
  ∀ x y s', x ∈ PQ.items s.items → y ∈ PQ.items s.items → x.executeTick < y.executeTick →
    Reach (timerStep PQ) Any s s' → ¬ List.Sublist [y, x] (pushed s'.delivered)

theorem TimerInv.conserved (hI : TimerInv PQ s) : Conserved PQ s where
  called := hI.called
  once := hI.counted.nodup
  places := by
    rw [← hI.counted.items, hI.gate.popped_eq, delivered_eq]
    ac_rfl
  one t u ht hu := by
    by_contra hne
    rw [hI.gate.others hu hne] at ht
    cases ht
  entered := hI.pushes.entered
  expired := hI.expired

theorem collects (PQ : PriorityQueue Heap (TimerItem Q F) TimerItem.lt) (s : TimerState Heap Tid Q F) :
    Collects PQ s := by
  intro t now ht
  have hstep : timerStep PQ s (.next t) = some { s with
      items := (PQ.takeOut (fun item => !decide (now < item.executeTick)) s.items).2,
      popped := s.popped ++ (PQ.takeOut (fun item => !decide (now < item.executeTick)) s.items).1,
      timers := update s.timers t
        (.deliver (PQ.takeOut (fun item => !decide (now < item.executeTick)) s.items).1) } := by
    simp only [timerStep, timerNext, ht]
  refine ⟨_, _, hstep, update_self .., ?_, ?_⟩
  · rw [PriorityQueue.takeOut_fst due_of_not_lt]
    exact Multiset.filter_congr (fun item _ => due_iff)
  · dsimp only
    rw [PriorityQueue.takeOut_snd due_of_not_lt]
    exact Multiset.filter_congr (fun item _ => not_congr due_iff)

/-- **The timer loses, doubles and reorders nothing**: in every interleaving of `Reserve` and `Distribute`. -/
theorem timer_conserves (h : TimerReach PQ s) : Conserved PQ s ∧ Collects PQ s ∧ InOrder PQ s :=
  ⟨h.timerInv.conserved, collects PQ s, fun _ _ _ hx hy hlt hr => h.timerInv.pushed_order hx hy hlt hr⟩

/-- Two jobs are reserved, the one that is due first later, a third is on its way, and the clock comes to where the two
are due. -/
def twoDue : List (TimerAct Two Two Nat) :=
  [.reserve .one 5 .one ⟨[], 7⟩, .next .one, .reserve .one 3 .two ⟨[], 8⟩, .next .one, .reserve .one 1 .one ⟨[], 9⟩,
   .tick 9, .distribute .two 9]

/-- The owner of job 8 is released, and both are delivered. -/
def twoDelivered : List (TimerAct Two Two Nat) :=
  twoDue ++ [.hold .two 0, .next .two, .next .two, .next .two, .next .two, .pushNext .two false]

/-- One of the two is dropped and the other one pushed, and the third is still in the hands of its `Reserve`. -/
theorem timer_conserves_two :
    (∃ s s' items, run (timerStep (sortedItems Two Nat)) Any (timerState₀ (sortedItems Two Nat)) twoDue = some s ∧
      s.reserved.Nodup ∧ timerStep (sortedItems Two Nat) s (.next .two) = some s' ∧ s'.timers .two = .deliver items ∧
      (items : Multiset (TimerItem Two Nat)) =
        ((sortedItems Two Nat).items s.items).filter (fun item => item.executeTick ≤ 9)) ∧
    ∃ s, run (timerStep (sortedItems Two Nat)) Any (timerState₀ (sortedItems Two Nat)) twoDelivered = some s ∧
      pushed s.delivered = [⟨5, ⟨.one, ⟨[], 7⟩, 0, 5⟩, 0⟩] ∧ dropped s.delivered = [⟨3, ⟨.two, ⟨[], 8⟩, 0, 3⟩, 1⟩] ∧
      (s.timers .one).inHand = [⟨.one, ⟨[], 9⟩, 0, 1⟩] ∧ Conserved (sortedItems Two Nat) s := by
  refine ⟨?_, ?_⟩
  · obtain ⟨s, hrun, hr⟩ := reach_of_run (timerStep (sortedItems Two Nat)) Any (timerState₀ (sortedItems Two Nat)) twoDue
      (by decide)
    have hpc : (run (timerStep (sortedItems Two Nat)) Any (timerState₀ (sortedItems Two Nat)) twoDue).map (fun s =>
        s.timers .two) = some (.collect 9) := by decide
    rw [hrun, Option.map_some, Option.some.injEq] at hpc
    obtain ⟨hconserved, hcollects, -⟩ := timer_conserves hr
    obtain ⟨s', items, hstep, hitems, hdue, -⟩ := hcollects .two 9 hpc
    exact ⟨s, s', items, hrun, hconserved.once, hstep, hitems, hdue⟩
  · obtain ⟨s, hrun, hr⟩ := reach_of_run (timerStep (sortedItems Two Nat)) Any (timerState₀ (sortedItems Two Nat))
      twoDelivered (by decide)
    have hend : (run (timerStep (sortedItems Two Nat)) Any (timerState₀ (sortedItems Two Nat)) twoDelivered).map
        (fun s => (pushed s.delivered, dropped s.delivered, (s.timers .one).inHand)) =
          some ([⟨5, ⟨.one, ⟨[], 7⟩, 0, 5⟩, 0⟩], [⟨3, ⟨.two, ⟨[], 8⟩, 0, 3⟩, 1⟩], [⟨.one, ⟨[], 9⟩, 0, 1⟩]) := by decide
    rw [hrun, Option.map_some, Option.some.injEq, Prod.mk.injEq, Prod.mk.injEq] at hend
    exact ⟨s, hrun, hend.1, hend.2.1, hend.2.2, (timer_conserves hr).1⟩

end JobTimer
end Geon
