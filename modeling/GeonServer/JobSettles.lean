import GeonServer.JobDelivery
import GeonServer.Ends
/-!
# JobSettles — job queues come to rest

A pusher adds to `_jobCount` before its job is in `_jobs`, and an executor that comes in between finds the queue empty
and looks again: it may do so for as long as the pusher is not scheduled.  That is all that can keep a job queue busy.
When nobody calls `Push` any more, every run in which no `PopAll` comes back with nothing is finite (`jobStep_lowers`), and
where it ends every job that was pushed has been executed (`job_queue_settles`).
-/
namespace Geon

open Lts Function

variable {Tid Q Job : Type*} [DecidableEq Tid] [DecidableEq Q]

/-- Nobody calls `Push` any more, and nobody takes a batch before there is one. -/
def Proceeds (s : JobState Tid Q Job) (a : JobAct Tid Q Job) (_ : JobState Tid Q Job) : Prop :=
  match a with
  | .push _ _ _ _ => False
  | .next t _ => ∀ q fs, (s.threads t).frames = .popAll q :: fs → (s.queues q).jobs ≠ []
  | .pop _ | .finish _ => True

/-! ## What is still to be done -/

/-- How much a frame still has to do.  An entry of `GlobalQueue` counts 3, and a job in `_jobs` 7: its own two steps, and
the round of `Execute` that finds it. -/
def JobFrame.weight : JobFrame Q Job → Nat
  | .pushing _ _ _ _ => 12
  | .first _ _ => 4
  | .popped _ => 2
  | .popAll _ => 1
  | .batch _ jobs i => 5 + 2 * (jobs.length - i)
  | .inJob _ jobs i => 6 + 2 * (jobs.length - (i + 1))
  | .tick _ => 4

def JobThread.weight (th : JobThread Q Job) : Nat := (th.frames.map JobFrame.weight).sum

variable [Fintype Tid] [Fintype Q] {s s' : JobState Tid Q Job}

def JobState.work (s : JobState Tid Q Job) : Nat :=
  tally JobThread.weight s.threads + 7 * tally (fun jq => jq.jobs.length) s.queues + 3 * s.globalQueue.length

omit [DecidableEq Tid] [DecidableEq Q] [Fintype Tid] [Fintype Q] in
/-- A step that brings the work down and makes nothing pending. -/
structure Lowers (s : JobState Tid Q Job) (t : Tid) (th : JobThread Q Job) (q : Q) (jq : JobQueue Tid Job)
    (g : List Q) : Prop where
  work : th.weight + 7 * jq.jobs.length + 3 * g.length <
    (s.threads t).weight + 7 * (s.queues q).jobs.length + 3 * s.globalQueue.length
  held : th.held q + jq.jobs.length ≤ (s.threads t).held q + (s.queues q).jobs.length
  others : ∀ p, p ≠ q → th.held p ≤ (s.threads t).held p

variable {t : Tid} {th : JobThread Q Job} {q : Q} {jq : JobQueue Tid Job} {g : List Q}

theorem Lowers.work_lt (h : Lowers s t th q jq g) : (s.set t th q jq g).work < s.work := by
  have hthreads := tally_update JobThread.weight s.threads t th
  have hqueues := tally_update (fun jq : JobQueue Tid Job => jq.jobs.length) s.queues q jq
  have := h.work
  simp only [JobState.work, JobState.set_threads, JobState.set_queues, JobState.set_globalQueue]
  omega

omit [Fintype Q] in
theorem Lowers.pending_le (h : Lowers s t th q jq g) (p : Q) : pending (s.set t th q jq g) p ≤ pending s p := by
  have hu := tally_update (JobThread.held p) s.threads t th
  simp only [pending, JobState.set_queues, JobState.set_threads]
  by_cases hp : p = q
  · subst hp
    rw [update_self]
    have := h.held
    omega
  · rw [update_of_ne hp]
    have := h.others p hp
    omega

omit [Fintype Tid] [Fintype Q] [DecidableEq Tid] in
/-- The innermost frame changes or goes, and the queue stays. -/
theorem Lowers.head {f : JobFrame Q Job} {fs fs' : List (JobFrame Q Job)} {c : Option Q} {called : List (Q × Option Job)}
    (hf : (s.threads t).frames = f :: fs) (hjobs : jq.jobs = (s.queues q).jobs)
    (hfs : fs' = fs ∧ 3 * g.length < f.weight + 3 * s.globalQueue.length ∨
      ∃ f', fs' = f' :: fs ∧ f'.weight + 3 * g.length < f.weight + 3 * s.globalQueue.length ∧
        ∀ p, f'.held p ≤ f.held p) : Lowers s t ⟨c, fs', called⟩ q jq g := by
  rcases hfs with ⟨rfl, hw⟩ | ⟨f', rfl, hw, hheld⟩
  · refine ⟨?_, ?_, fun p _ => ?_⟩
    · simp only [JobThread.weight, hf, List.map_cons, List.sum_cons, hjobs]
      omega
    · simp only [JobThread.held, hf, List.map_cons, List.sum_cons, hjobs]
      omega
    · simp only [JobThread.held, hf, List.map_cons, List.sum_cons]
      omega
  · refine ⟨?_, ?_, fun p _ => ?_⟩
    · simp only [JobThread.weight, hf, List.map_cons, List.sum_cons, hjobs]
      omega
    · have := hheld q
      simp only [JobThread.held, hf, List.map_cons, List.sum_cons, hjobs]
      omega
    · have := hheld p
      simp only [JobThread.held, hf, List.map_cons, List.sum_cons]
      omega

omit [Fintype Q] in
/-- **Every step that is left brings the work down.** -/
theorem jobStep_lowers (hI : JobInv s) {a : JobAct Tid Q Job} (he : jobStep s a = some s')
    (hok : Proceeds s a s') : ∃ t th q jq g, s' = s.set t th q jq g ∧ Lowers s t th q jq g := by
  cases a with
  | push t q job pushOnly => exact absurd hok id
  | pop t =>
    simp only [jobStep] at he
    split at he <;> cases he
    rename_i q g hf hg
    refine ⟨t, _, q, _, g, rfl, ⟨?_, ?_, fun p _ => ?_⟩⟩
    · simp only [JobThread.weight, hf, hg, List.map_cons, List.map_nil, List.sum_cons, List.sum_nil, JobFrame.weight,
        List.length_cons]
      omega
    · simp [JobThread.held, hf, JobFrame.held]
    · simp [JobThread.held, hf, JobFrame.held]
  | finish t =>
    simp only [jobStep] at he
    split at he <;> cases he
    rename_i q jobs i fs hf
    refine ⟨t, _, q, _, _, rfl, .head hf rfl (.inr ⟨_, rfl, ?_, fun p => le_refl _⟩)⟩
    simp only [JobFrame.weight]
    omega
  | next t timeout =>
    simp only [jobStep] at he
    cases hf : (s.threads t).frames with
    | nil => simp only [jobNext, hf] at he; cases he
    | cons f fs =>
    cases f <;> simp only [jobNext, hf] at he
    case pushing q job pushOnly prevCount =>
      cases he
      refine ⟨t, _, q, _, _, rfl, ⟨?_, ?_, fun p hp => ?_⟩⟩
      · split <;> simp only [JobThread.weight, hf, List.map_cons, List.sum_cons, JobFrame.weight, List.length_append,
          List.length_singleton] <;> omega
      · split <;> simp only [JobThread.held, hf, List.map_cons, List.sum_cons, JobFrame.held, if_true,
          List.length_append, List.length_singleton] <;> omega
      · split <;> simp [JobThread.held, hf, JobFrame.held]
    case first q pushOnly =>
      split at he <;> cases he
      · exact ⟨t, _, q, _, _, rfl, .head hf rfl (.inr ⟨_, rfl, by simp [JobFrame.weight], fun p => le_refl _⟩)⟩
      · exact ⟨t, _, q, _, _, rfl, .head hf rfl (.inl ⟨rfl, by simp [JobFrame.weight]; omega⟩)⟩
    case popped q =>
      cases he
      exact ⟨t, _, q, _, _, rfl, .head hf rfl (.inr ⟨_, rfl, by simp [JobFrame.weight], fun p => le_refl _⟩)⟩
    case popAll q =>
      cases he
      -- the batch is not empty: its jobs pay for the round
      have hpos := List.length_pos_iff.2 (hok q fs hf)
      obtain ⟨hall, hrest⟩ := popAll_eq _ (hI.jobs q)
      have hlen : (popAll (s.queues q).jobs).1.length = (s.queues q).jobs.length := by
        conv_rhs => rw [← hall]
        simp
      refine ⟨t, _, q, _, _, rfl, ⟨?_, ?_, fun p hp => ?_⟩⟩
      · simp only [JobThread.weight, hf, List.map_cons, List.sum_cons, JobFrame.weight, hrest, List.length_nil, hlen]
        omega
      · simp only [JobThread.held, hf, List.map_cons, List.sum_cons, JobFrame.held, if_true, hrest, List.length_nil, hlen]
        omega
      · simp [JobThread.held, hf, JobFrame.held, Ne.symm hp]
    case inJob => cases he
    case tick q =>
      split at he <;> cases he
      · exact ⟨t, _, q, _, _, rfl, .head hf rfl (.inl ⟨rfl, by simp [JobFrame.weight]; omega⟩)⟩
      · exact ⟨t, _, q, _, _, rfl, .head hf rfl (.inr ⟨_, rfl, by simp [JobFrame.weight], fun p => le_refl _⟩)⟩
    case batch q jobs i =>
      split at he
      · split at he <;> cases he
        rename_i job hjob
        obtain ⟨hi, -⟩ := List.getElem?_eq_some_iff.1 hjob
        refine ⟨t, _, q, _, _, rfl, .head hf rfl (.inr ⟨_, rfl, ?_, fun p => le_refl _⟩)⟩
        simp only [JobFrame.weight]
        omega
      · split at he <;> cases he
        · exact ⟨t, _, q, _, _, rfl, .head hf rfl (.inl ⟨rfl, by simp [JobFrame.weight]⟩)⟩
        · exact ⟨t, _, q, _, _, rfl, .head hf rfl (.inr ⟨_, rfl, by simp only [JobFrame.weight]; omega,
            fun p => by simp [JobFrame.held]⟩)⟩

omit [Fintype Q] in
theorem jobStep_bounded (hI : JobInv s) (hb : JobsBounded s) {a : JobAct Tid Q Job} (he : jobStep s a = some s')
    (hok : Proceeds s a s') : JobsBounded s' := by
  obtain ⟨t, th, q, jq, g, rfl, hlow⟩ := jobStep_lowers hI he hok
  exact fun p => lt_of_le_of_lt (hlow.pending_le p) (hb p)

/-! ## Where nothing is left -/

omit [DecidableEq Tid] [Fintype Q] [Fintype Tid] in
/-- A running job that counts has the token. -/
theorem tokens_of_held {f : JobFrame Q Job} (hin : f.isInJob = true) {q : Q} (hpos : 0 < f.held q) :
    f.tokens q = 1 := by
  cases f with
  | inJob q' jobs i =>
    simp only [JobFrame.held] at hpos
    split at hpos
    · rename_i hq
      simp [JobFrame.tokens, hq]
    · cases hpos
  | _ => cases hin

omit [Fintype Q] in
/-- **A thread that cannot go on** is in no call, or finds a queue empty. -/
theorem frames_of_no_next (hI : JobInv s) (hb : JobsBounded s) (t : Tid) (hfinish : jobStep s (.finish t) = none)
    (hnext : ∀ s', jobNext s t false = some s' → ∃ q fs, (s.threads t).frames = .popAll q :: fs ∧ (s.queues q).jobs = []) :
    (s.threads t).frames = [] ∨ ∃ q fs, (s.threads t).frames = .popAll q :: fs ∧ (s.queues q).jobs = [] := by
  cases hf : (s.threads t).frames with
  | nil => exact .inl rfl
  | cons f fs =>
  right
  by_contra hno
  have hstay : jobNext s t false = none := by
    cases hs : jobNext s t false with
    | none => rfl
    | some s' =>
      obtain ⟨q, fs', hf', hjobs⟩ := hnext s' hs
      exact absurd ⟨q, fs', hf ▸ hf', hjobs⟩ hno
  cases f <;> simp only [jobNext, hf] at hstay
  case inJob => simp [jobStep, hf] at hfinish
  case batch q jobs i =>
    have hlen := hI.batch_lt hb hf
    have hint := BitVec.toInt_eq_toNat_of_lt (x := BitVec.ofNat 32 jobs.length) (by rw [toNat_size hlen]; omega)
    rw [toNat_size hlen] at hint
    split at hstay
    · split at hstay
      · rename_i hi hnone
        have := List.getElem?_eq_none_iff.1 hnone
        omega
      · cases hstay
    · split at hstay <;> cases hstay
  all_goals first
    | cases hstay
    | (split at hstay <;> cases hstay)

omit [Fintype Q] in
/-- **A queue is found empty only while a pusher is on its way**, and that pusher can go on. -/
theorem not_all_empty (hI : JobInv s) (hst : StackOk s)
    (h : ∀ t, (s.threads t).frames = [] ∨ ∃ q fs, (s.threads t).frames = .popAll q :: fs ∧ (s.queues q).jobs = []) (t : Tid) :
    (s.threads t).frames = [] := by
  refine (h t).resolve_right ?_
  rintro ⟨q, fs, hf, hjobs⟩
  have hmine : 1 ≤ (s.threads t).tokens q := JobThread.tokens_pos (f := .popAll q) (by rw [hf]; exact List.mem_cons_self)
    (by simp [JobFrame.tokens])
  have hle := hI.tokens_le q
  -- what `_jobCount` counts is with some thread
  have hpend : pending s q ≠ 0 := by
    intro h0
    have htok := hI.token q
    rw [if_pos h0] at htok
    have := le_tally (JobThread.tokens q) s.threads t
    simp only [tokens] at htok
    omega
  rw [pending, hjobs, List.length_nil, Nat.zero_add] at hpend
  obtain ⟨u, hu⟩ := exists_of_tally_pos (JobThread.held q) s.threads (Nat.pos_of_ne_zero hpend)
  rcases h u with hnil | ⟨q', fs', hf', -⟩
  · simp [JobThread.held, hnil] at hu
  · -- below its `PopAll` are only running jobs, whose token would be the second one
    simp only [JobThread.held, hf', List.map_cons, List.sum_cons, JobFrame.held, Nat.zero_add] at hu
    obtain ⟨n, hn, hpos⟩ := List.exists_mem_ne_zero_of_sum_ne_zero (Nat.pos_iff_ne_zero.1 hu)
    obtain ⟨f, hmem, rfl⟩ := List.mem_map.1 hn
    have htok := tokens_of_held (hst u f (by rw [hf']; exact hmem)) (Nat.pos_of_ne_zero hpos)
    by_cases hut : u = t
    · subst hut
      rw [hf] at hf'
      cases hf'
      have hsum := List.single_le_sum (fun _ _ => Nat.zero_le _) _ (List.mem_map_of_mem (f := JobFrame.tokens q) hmem)
      have hone := le_tally (JobThread.tokens q) s.threads u
      simp only [JobThread.tokens, hf, List.map_cons, List.sum_cons, JobFrame.tokens, if_true] at hone hle
      omega
    · have htwo := add_le_tally (JobThread.tokens q) s.threads hut
      have hmem : f ∈ (s.threads u).frames := by
        rw [hf']
        exact List.mem_cons_of_mem _ hmem
      have := JobThread.tokens_pos hmem htok
      omega

/-- No thread is inside `Push` or `Execute`, and `GlobalQueue` is empty. -/
structure JobsDone (s : JobState Tid Q Job) : Prop where
  frames : ∀ t, (s.threads t).frames = []
  globalQueue : s.globalQueue = []

omit [DecidableEq Tid] [DecidableEq Q] [Fintype Tid] [Fintype Q] in
theorem JobsDone.quiescent (h : JobsDone s) (q : Q) : Quiescent s q := by
  refine ⟨fun t f hf => ?_, by rw [h.globalQueue]; exact List.not_mem_nil⟩
  rw [h.frames t] at hf
  cases hf

omit [Fintype Q] in
/-- **Nothing is left when no step is.** -/
theorem jobsDone_of_stuck [Nonempty Tid] (hI : JobInv s) (hb : JobsBounded s) (hst : StackOk s)
    (h : Stuck jobStep Proceeds s) : JobsDone s := by
  have hframes := not_all_empty hI hst (fun t => by
    refine frames_of_no_next hI hb t ?_ (fun s' he => ?_)
    · cases hs : jobStep s (.finish t) with
      | none => rfl
      | some s' => exact absurd trivial (h _ s' hs)
    · have hblocked := h (.next t false) s' he
      simp only [Proceeds, not_forall, not_not] at hblocked
      obtain ⟨q, fs, hf, hjobs⟩ := hblocked
      exact ⟨q, fs, hf, hjobs⟩)
  refine ⟨hframes, ?_⟩
  obtain ⟨t⟩ := ‹Nonempty Tid›
  cases hg : s.globalQueue with
  | nil => rfl
  | cons q g =>
    have he : jobStep s (.pop t) = some (s.set t { s.threads t with frames := [.popped q] } q (s.queues q) g) := by
      simp only [jobStep, hframes t, hg]
    exact absurd trivial (h _ _ he)

/-- **Job queues come to rest.**  From every state of a run in which fewer than 2³¹ jobs are pending on any queue and none
that is pushed is null, once nobody calls `Push` any more, every order of the remaining steps is finite in which no thread
takes a batch from an empty queue (a pusher is on its way then); and where it ends no thread is inside a queue, and all
jobs have been executed, those of each thread in the order it pushed them. -/
theorem job_queue_settles [Nonempty Tid] (h : JobReach s) :
    Ends jobStep Proceeds (fun s => JobsDone s ∧ ∀ q, (s.queues q).executed.map some = (s.queues q).entered.map Prod.snd ∧
      ∀ t, (s.queues q).executedBy t = (s.threads t).calls q) s := by
  refine Ends.of_measure (I := JobReach) (r := (· < ·)) wellFounded_lt JobState.work ?_ ?_ ?_ h
  · intro s a s' hr he hok
    obtain ⟨hI, hb⟩ := hr.inv
    refine hr.next he ⟨jobStep_bounded hI hb he hok, ?_⟩
    cases a with
    | push t q job pushOnly => exact absurd hok id
    | _ => trivial
  · intro s a s' hr he hok
    obtain ⟨t, th, q, jq, g, rfl, hlow⟩ := jobStep_lowers hr.inv.1 he hok
    exact hlow.work_lt
  · intro s hr hstuck
    have hdone := jobsDone_of_stuck hr.inv.1 hr.inv.2 hr.delivery.1 hstuck
    exact ⟨hdone, fun q => hr.executed_all (hdone.quiescent q)⟩

/-- Job 7 is running and has pushed job 8, and another thread has pushed job 9: wherever the run stops, all three have
been executed. -/
theorem job_queue_settles_three : ∃ s, run jobStep JobsOk (jobState₀ : JobState Two Unit Nat) (threeJobs.take 8) = some s ∧
    (s.queues ()).executed = [7] ∧ ∀ s', Reach jobStep Proceeds s s' → Stuck jobStep Proceeds s' →
      (s'.queues ()).executed.map some = (s'.queues ()).entered.map Prod.snd := by
  obtain ⟨s, hrun, hr⟩ := reach_of_run jobStep JobsOk (jobState₀ : JobState Two Unit Nat) (threeJobs.take 8) (by decide)
  have hs : (run jobStep JobsOk (jobState₀ : JobState Two Unit Nat) (threeJobs.take 8)).map (fun s =>
      (s.queues ()).executed) = some [7] := rfl
  simp only [hrun, Option.map_some, Option.some.injEq] at hs
  have : Nonempty Two := ⟨.one⟩
  exact ⟨s, hrun, hs, fun s' hreach hstuck => (((job_queue_settles hr).stuck hreach hstuck).2 ()).1⟩

end Geon
