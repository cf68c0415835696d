import GeonServer.TimerRun
/-!
# TimerOwner — who keeps the owner of a timer alive

`JobData` has its owner as a weak pointer, so that a job whose queue nobody needs any more is dropped.  But the job is
in the timer too, and the closure that `DoTimer` makes of a member function captures the owner: as long as such a job
waits, its queue lives, and the job is pushed (`dropped_iff`).
-/
namespace Geon
namespace JobTimer

open Lts Function

variable {Heap Tid Q F : Type} [DecidableEq Q] [DecidableEq Tid] [Fintype Tid]
  {PQ : PriorityQueue Heap (TimerItem Q F) TimerItem.lt} {s s' : TimerState Heap Tid Q F} {a : TimerAct Tid Q F}

/-- The entries of the timer: those of `_items`, and those in the hands of `Reserve` and of `Distribute`. -/
def Pending (PQ : PriorityQueue Heap (TimerItem Q F) TimerItem.lt) (s : TimerState Heap Tid Q F)
    (jobData : JobData Q F) : Prop :=
  (∃ item ∈ PQ.items s.items, item.jobData = jobData) ∨ ∃ t, jobData ∈ (s.timers t).entries

/-- No entry of the timer captures the queue. -/
def Uncaptured (PQ : PriorityQueue Heap (TimerItem Q F) TimerItem.lt) (s : TimerState Heap Tid Q F) (q : Q) : Prop :=
  ∀ jobData, Pending PQ s jobData → q ∉ jobData.job.captures

/-- Thread `t`, which is about to look at the item, drops it, and the item is never pushed. -/
def DropsForGood (PQ : PriorityQueue Heap (TimerItem Q F) TimerItem.lt) (s : TimerState Heap Tid Q F) (t : Tid)
    (item : TimerItem Q F) : Prop :=
  ∃ s', timerStep PQ s (.next t) = some s' ∧
    ∀ s'', Reach (timerStep PQ) Any s' s'' → item ∈ dropped s''.delivered ∧ item ∉ pushed s''.delivered

/-! ## What is alive -/

omit [DecidableEq Tid] [Fintype Tid] in
theorem TimerPc.locked_eq_zero {pc : TimerPc Q F} (h : pc.inside = 0) (q : Q) : pc.locked q = 0 := by
  cases pc with
  | push => cases h
  | inPush => cases h
  | _ => rfl

theorem holds_eq_zero {jobData : JobData Q F} {q : Q} : jobData.holds q = 0 ↔ q ∉ jobData.job.captures :=
  List.count_eq_zero

/-- A thread that is not in `Push` holds what its entries capture. -/
theorem TimerPc.holds_eq_zero {pc : TimerPc Q F} {q : Q} (hlocked : pc.locked q = 0) :
    pc.holds q = 0 ↔ ∀ jobData ∈ pc.entries, q ∉ jobData.job.captures := by
  simp only [TimerPc.holds_eq_zero_iff, hlocked, JobTimer.holds_eq_zero, true_and]

/-- **Who keeps a queue alive**: while a thread looks at an item, a queue that nothing holds outside the timer is dead
exactly if no entry captures it. -/
theorem TimerInv.strong_eq_zero (hI : TimerInv PQ s) {t : Tid} {items : List (TimerItem Q F)} {q : Q}
    (ht : s.timers t = .deliver items) (hrefs : s.refs q = 0) : strong PQ s q = 0 ↔ Uncaptured PQ s q := by
  have hlocked : ∀ u, (s.timers u).locked q = 0 := by
    intro u
    by_cases hut : u = t
    · rw [hut, ht]
      rfl
    · exact TimerPc.locked_eq_zero (hI.gate.others (by rw [ht]; rfl) hut) q
  have hthreads : (∀ u, (s.timers u).holds q = 0) ↔ ∀ u, ∀ jobData ∈ (s.timers u).entries, q ∉ jobData.job.captures :=
    forall_congr' (fun u => TimerPc.holds_eq_zero (hlocked u))
  simp only [JobTimer.strong_eq_zero, hrefs, hthreads, holds_eq_zero, true_and]
  constructor
  · rintro ⟨hitems, hentries⟩ jobData (⟨item, hitem, rfl⟩ | ⟨u, hu⟩)
    · exact hitems item hitem
    · exact hentries u jobData hu
  · intro h
    exact ⟨fun item hitem => h _ (.inl ⟨item, hitem, rfl⟩), fun u jobData hu => h jobData (.inr ⟨u, hu⟩)⟩

/-! ## What is dropped -/

theorem delivered_grows (he : Effect PQ s a s') : s.delivered <+: s'.delivered := by
  cases he with
  | enter => exact List.prefix_append _ _
  | drop => exact List.prefix_append _ _
  | _ => exact List.prefix_refl _

/-- **What has been dropped stays dropped.** -/
theorem dropped_mono (h : Reach (timerStep PQ) Any s s') : dropped s.delivered ⊆ dropped s'.delivered := by
  refine Reach.inv (P := fun s' => dropped s.delivered ⊆ dropped s'.delivered) h (List.Subset.refl _) ?_
  rintro u b u' - hsub he - item hitem
  have hgrow := (delivered_grows (timerStep_effect he)).subset
  obtain ⟨d, hd, rfl⟩ := List.mem_map.1 (hsub hitem)
  rw [List.mem_filter] at hd
  exact List.mem_map_of_mem (List.mem_filter.2 ⟨hgrow hd.1, hd.2⟩)

theorem TimerInv.not_pushed (hI : TimerInv PQ s) {item : TimerItem Q F} (hitem : item ∈ dropped s.delivered) :
    item ∉ pushed s.delivered := by
  intro hpushed
  have hnodup : ((s.reserved : List (TimerItem Q F)) : Multiset (TimerItem Q F)).Nodup := hI.conserved.once
  rw [← hI.conserved.places] at hnodup
  have hdisjoint := (Multiset.nodup_add.1 hnodup).2.2
  exact Multiset.disjoint_left.1 hdisjoint (Multiset.mem_add.2 (.inr (Multiset.mem_coe.2 hpushed)))
    (Multiset.mem_coe.2 hitem)

/-- **When a timer lets its owner go**: a due job whose owner is held by nothing outside the timer is dropped for good
exactly if no entry of the timer captures the owner. -/
theorem dropped_iff (h : TimerReach PQ s) {t : Tid} {item : TimerItem Q F} {items : List (TimerItem Q F)}
    (ht : s.timers t = .deliver (item :: items)) (hfree : (s.queues.threads t).free = true)
    (hrefs : s.refs item.jobData.owner = 0) :
    DropsForGood PQ s t item ↔ Uncaptured PQ s item.jobData.owner := by
  have hI := h.timerInv
  rw [← hI.strong_eq_zero ht hrefs]
  constructor
  · rintro ⟨s', he, hdrop⟩
    obtain ⟨hdropped, -⟩ := hdrop s' .start
    have hI' := hI.step he
    by_contra halive
    -- the owner is alive, so the item is going to be pushed, and what is dropped has a dead owner
    simp only [timerStep, timerNext, ht, hfree, if_true, Nat.pos_of_ne_zero halive] at he
    cases he
    exact halive (hI.expired item hdropped)
  · intro hdead
    have he : timerStep PQ s (.next t) = some { s with
        delivered := s.delivered ++ [⟨item, none⟩], timers := update s.timers t (.deliver items) } := by
      simp only [timerStep, timerNext, ht, hfree, if_true, hdead, Nat.lt_irrefl, if_false]
    refine ⟨_, he, fun s'' hr => ?_⟩
    have hnow : item ∈ dropped (s.delivered ++ [⟨item, none⟩]) := by
      rw [dropped_none]
      exact List.mem_append.2 (.inr (List.mem_singleton_self item))
    have hlater := dropped_mono hr hnow
    have hI'' : TimerInv PQ s'' := hr.inv (hI.step he) (fun _ _ _ _ hI he _ => hI.step he)
    exact ⟨hlater, hI''.not_pushed hlater⟩

/-- The last reference to a queue goes while a callback waits in the timer. -/
def callbackWaits : List (TimerAct Two Unit Nat) :=
  [.reserve .one 0 () ((DoTimer.callback [] 7).job ()), .next .one, .hold () 0, .distribute .two 0, .next .two]

theorem dropped_iff_callback : ∃ s, run (timerStep (sortedItems Unit Nat)) Any (timerState₀ (sortedItems Unit Nat))
      callbackWaits = some s ∧ DropsForGood (sortedItems Unit Nat) s .two ⟨0, ⟨(), ⟨[], 7⟩, 0, 0⟩, 0⟩ := by
  obtain ⟨s, hrun, hr⟩ := reach_of_run (timerStep (sortedItems Unit Nat)) Any (timerState₀ (sortedItems Unit Nat))
    callbackWaits (by decide)
  have htimers : (run (timerStep (sortedItems Unit Nat)) Any (timerState₀ (sortedItems Unit Nat)) callbackWaits).map
      (fun s => (s.timers .one, s.timers .two)) = some (.idle, .deliver [⟨0, ⟨(), ⟨[], 7⟩, 0, 0⟩, 0⟩]) := by decide
  have hrest : (run (timerStep (sortedItems Unit Nat)) Any (timerState₀ (sortedItems Unit Nat)) callbackWaits).map
      (fun s => (s.items.1, (s.queues.threads .two).frames, s.refs ())) = some ([], [], 0) := by decide
  simp only [hrun, Option.map_some, Option.some.injEq, Prod.mk.injEq] at htimers hrest
  obtain ⟨hone, htwo⟩ := htimers
  obtain ⟨hitems, hframes, hrefs⟩ := hrest
  have hfree : (s.queues.threads .two).free = true := by
    unfold JobThread.free
    rw [hframes]
  refine ⟨s, hrun, (dropped_iff hr htwo hfree hrefs).2 ?_⟩
  rintro jobData (⟨item, hitem, rfl⟩ | ⟨t, ht⟩)
  · have hnil : (sortedItems Unit Nat).items s.items = (s.items.1 : Multiset (TimerItem Unit Nat)) := rfl
    rw [hnil, hitems] at hitem
    exact absurd hitem (Multiset.notMem_zero item)
  · cases t
    · rw [hone] at ht
      cases ht
    · rw [htwo] at ht
      obtain rfl := List.mem_singleton.1 ht
      exact List.not_mem_nil

omit [DecidableEq Tid] in
/-- **A member function in the timer keeps its owner alive**, so its job is not dropped. -/
theorem memFunc_alive {t : Tid} {item : TimerItem Q F} {items : List (TimerItem Q F)} {f : F} {args : List Q}
    (ht : s.timers t = .deliver (item :: items))
    (hjob : item.jobData.job = (DoTimer.memFunc f args).job item.jobData.owner) :
    0 < strong PQ s item.jobData.owner := by
  have hholds : 0 < item.jobData.holds item.jobData.owner := by
    unfold JobData.holds
    rw [hjob]
    exact List.count_pos_iff.2 List.mem_cons_self
  have hle := le_tally (TimerPc.holds item.jobData.owner) s.timers t
  rw [ht] at hle
  simp only [TimerPc.holds, TimerPc.entries, List.map_cons, List.sum_cons] at hle
  unfold strong
  omega

/-- The last reference to a queue goes while a member function waits in the timer. -/
def memFuncWaits : List (TimerAct Two Unit Nat) :=
  [.reserve .one 0 () ((DoTimer.memFunc 7 []).job ()), .next .one, .hold () 0, .distribute .two 0, .next .two]

/-- `Distribute` goes on, and another thread executes what it has handed over. -/
def memFuncRuns : List (TimerAct Two Unit Nat) :=
  [.next .two, .next .two, .pushNext .two false, .pushNext .two false, .next .two, .queue (.pop .one),
   .queue (.next .one false), .queue (.next .one false), .queue (.next .one false)]

/-- **The member function of a queue that only the timer holds is executed.** -/
theorem memFunc_executed : ∃ s s', run (timerStep (sortedItems Unit Nat)) Any (timerState₀ (sortedItems Unit Nat))
      memFuncWaits = some s ∧ s.refs () = 0 ∧ (s.timers .two).entries.length = 1 ∧
    run (timerStep (sortedItems Unit Nat)) Any s memFuncRuns = some s' ∧ dropped s'.delivered = [] ∧
      (s'.queues.threads .one).frames = [.inJob () [⟨[()], 7⟩] 0] := by
  obtain ⟨s, hrun, -⟩ := reach_of_run (timerStep (sortedItems Unit Nat)) Any (timerState₀ (sortedItems Unit Nat))
    memFuncWaits (by decide)
  have hs : (run (timerStep (sortedItems Unit Nat)) Any (timerState₀ (sortedItems Unit Nat)) memFuncWaits).map (fun s =>
      (s.refs (), (s.timers .two).entries.length)) = some (0, 1) := by decide
  have hs' : ((run (timerStep (sortedItems Unit Nat)) Any (timerState₀ (sortedItems Unit Nat)) memFuncWaits).bind
      (fun s => run (timerStep (sortedItems Unit Nat)) Any s memFuncRuns)).map (fun s' =>
        (dropped s'.delivered, (s'.queues.threads .one).frames)) = some ([], [.inJob () [⟨[()], 7⟩] 0]) := by decide
  rw [hrun] at hs hs'
  simp only [Option.map_some, Option.some.injEq, Prod.mk.injEq] at hs
  rw [Option.bind_some] at hs'
  obtain ⟨s', hrun', heq⟩ := Option.map_eq_some_iff.1 hs'
  rw [Prod.mk.injEq] at heq
  exact ⟨s, s', hrun, hs.1, hs.2, hrun', heq.1, heq.2⟩

end JobTimer
end Geon
