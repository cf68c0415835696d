import GeonServer.JobDelivery
/-!
# ClearJobs — what `_jobCount` still counts

`JobQueue::ClearJobs` empties `_jobs` and leaves `_jobCount` as it is.  What it has thrown out is counted for ever, so
`fetch_sub` never finds the count of a batch again: once a job has been thrown out, the queue always has an executor or
is in `GlobalQueue`, with nothing in it or not (`jobCount_honest_iff`).
-/
namespace Geon

open Lts Function

variable {Tid Q Job : Type*} [DecidableEq Tid] [DecidableEq Q]

/-- The queues, and how many jobs `ClearJobs` has thrown out of each. -/
structure ClearState (Tid Q Job : Type*) where
  jobs : JobState Tid Q Job
  cleared : Q → Nat

inductive ClearAct (Tid Q Job : Type*)
  | job (a : JobAct Tid Q Job)
  /-- Code outside the queues, or a running job, calls `ClearJobs`. -/
  | clearJobs (t : Tid) (q : Q)

/-- `ClearJobs`: one call of `LockQueue::Clear`. -/
def JobState.clearJobs (s : JobState Tid Q Job) (q : Q) : JobState Tid Q Job :=
  { s with queues := update s.queues q { s.queues q with jobs := [] } }

def clearStep (s : ClearState Tid Q Job) : ClearAct Tid Q Job → Option (ClearState Tid Q Job)
  | .job a => (jobStep s.jobs a).map (fun jobs => ⟨jobs, s.cleared⟩)
  | .clearJobs t q =>
    if (s.jobs.threads t).free = true then
      some ⟨s.jobs.clearJobs q, update s.cleared q (s.cleared q + (s.jobs.queues q).jobs.length)⟩
    else none

def clearState₀ : ClearState Tid Q Job := ⟨jobState₀, fun _ => 0⟩

variable [Fintype Tid]

/-- Pushes are of jobs, and `_jobCount` stays below 2³¹. -/
def ClearOk (s : ClearState Tid Q Job) (a : ClearAct Tid Q Job) (s' : ClearState Tid Q Job) : Prop :=
  CountBounded s'.cleared s'.jobs ∧
  match a with
  | .job a => PushesJobs s.jobs a s'.jobs
  | .clearJobs _ _ => True

instance [Fintype Q] (s : ClearState Tid Q Job) (s' : ClearState Tid Q Job) : ∀ a, Decidable (ClearOk s a s')
  | .job a =>
    have : Decidable (CountBounded s'.cleared s'.jobs) := inferInstanceAs (Decidable (∀ _, _))
    inferInstanceAs (Decidable (_ ∧ PushesJobs s.jobs a s'.jobs))
  | .clearJobs _ _ =>
    have : Decidable (CountBounded s'.cleared s'.jobs) := inferInstanceAs (Decidable (∀ _, _))
    inferInstanceAs (Decidable (_ ∧ True))

def ClearReach (s : ClearState Tid Q Job) : Prop := Reach clearStep ClearOk clearState₀ s

/-- No thread is inside `Push` or `Execute` of the queue or has popped it. -/
def Outside (s : JobState Tid Q Job) (q : Q) : Prop := ∀ t, ∀ f ∈ (s.threads t).frames, f.queue ≠ q

variable {s : JobState Tid Q Job} {lost : Q → Nat} {q : Q}

omit [DecidableEq Tid] in
/-- **`ClearJobs` loses what it throws out**: the count and the token stay. -/
theorem CountInv.clearJobs (hI : CountInv lost s) (q : Q) :
    CountInv (update lost q (lost q + (s.queues q).jobs.length)) (s.clearJobs q) := by
  have hsum : ∀ p, pending (s.clearJobs q) p + update lost q (lost q + (s.queues q).jobs.length) p =
      pending s p + lost p := by
    intro p
    unfold pending JobState.clearJobs
    by_cases hp : p = q
    · subst hp
      simp only [update_self, List.length_nil]
      omega
    · simp only [update_of_ne hp]
  have hcount : ∀ p, ((s.clearJobs q).queues p).jobCount = (s.queues p).jobCount :=
    fun p => apply_update_of_eq (fun jq => jq.jobCount) s.queues (i := q) (a := { s.queues q with jobs := [] }) rfl p
  refine ⟨fun p => ?_, fun p => ?_, fun p => ?_, hI.frames⟩
  · rw [hsum p, hcount p]
    exact hI.count p
  · rw [hsum p]
    exact hI.token p
  · unfold JobState.clearJobs
    by_cases hp : p = q
    · subst hp
      simp
    · simpa only [update_of_ne hp] using hI.jobs p

/-- **The step lemma.** -/
theorem clearStep_inv {s s' : ClearState Tid Q Job} {a : ClearAct Tid Q Job} (hI : CountInv s.cleared s.jobs)
    (hb : CountBounded s.cleared s.jobs) (he : clearStep s a = some s') (hok : ClearOk s a s') :
    CountInv s'.cleared s'.jobs := by
  cases a with
  | job a =>
    obtain ⟨jobs, hstep, rfl⟩ := Option.map_eq_some_iff.1 he
    exact jobStep_countInv hI hb hstep hok.2
  | clearJobs t q =>
    obtain ⟨-, he⟩ := Option.ite_none_right_eq_some.1 he
    cases he
    exact hI.clearJobs q

theorem ClearReach.inv {s : ClearState Tid Q Job} (h : ClearReach s) :
    CountInv s.cleared s.jobs ∧ CountBounded s.cleared s.jobs := by
  refine Reach.inv (P := fun s => CountInv s.cleared s.jobs ∧ CountBounded s.cleared s.jobs) h ⟨?_, fun q => ?_⟩
    (fun _ _ _ _ hP he hok => ⟨clearStep_inv hP.1 hP.2 he hok, hok.1⟩)
  · exact jobInv_iff.1 jobInv₀
  · have hcount := (jobInv_iff.1 jobInv₀).count (s := (jobState₀ : JobState Tid Q Job)) q
    unfold clearState₀
    rw [← hcount]
    exact Nat.two_pow_pos 31

omit [DecidableEq Tid] in
/-- A queue nobody is inside of has its pending jobs in `_jobs` and its token, if it has one, in `GlobalQueue`. -/
theorem Outside.counts (h : Outside s q) :
    pending s q = (s.queues q).jobs.length ∧ tokens s q = s.globalQueue.count q := by
  have hheld : tally (JobThread.held q) s.threads = 0 := by
    refine (tally_eq_zero _ _).2 (fun t => List.sum_eq_zero (fun n hn => ?_))
    obtain ⟨f, hf, rfl⟩ := List.mem_map.1 hn
    have hne := h t f hf
    cases f <;> simp_all [JobFrame.queue, JobFrame.held]
  have htokens : tally (JobThread.tokens q) s.threads = 0 := by
    refine (tally_eq_zero _ _).2 (fun t => List.sum_eq_zero (fun n hn => ?_))
    obtain ⟨f, hf, rfl⟩ := List.mem_map.1 hn
    have hne := h t f hf
    cases f <;> simp_all [JobFrame.queue, JobFrame.tokens]
  unfold pending tokens
  omega

/-- **When `_jobCount` is honest**: with nobody inside the queue it is the number of jobs in `_jobs` exactly if no call
of `ClearJobs` has thrown a job out so far.  What is pushed is executed all the same, as the queue keeps its one token
while it has a job; but once a job has been thrown out, the queue is in `GlobalQueue` also when it has none. -/
theorem jobCount_honest_iff {s : ClearState Tid Q Job} (h : ClearReach s) (q : Q) :
    (Outside s.jobs q →
      ((s.jobs.queues q).jobCount.toInt = (s.jobs.queues q).jobs.length ↔ s.cleared q = 0)) ∧
    (0 < pending s.jobs q → tokens s.jobs q = 1) ∧
    (Outside s.jobs q → 0 < s.cleared q → q ∈ s.jobs.globalQueue) := by
  obtain ⟨hI, hb⟩ := h.inv
  have hcount := hI.count q
  have htoken := hI.token q
  have hbound := hb q
  refine ⟨fun hout => ?_, fun hpos => ?_, fun hout hcleared => ?_⟩
  · obtain ⟨hpending, -⟩ := hout.counts
    rw [BitVec.toInt_eq_toNat_of_lt (by omega), hcount, hpending]
    omega
  · rw [htoken, if_neg (by omega)]
  · obtain ⟨-, hglobal⟩ := hout.counts
    rw [htoken, if_neg (by omega)] at hglobal
    exact List.count_pos_iff.1 (by omega)

/-- A job is handed over to `GlobalQueue` and then thrown out. -/
def clearedJob : List (ClearAct Two Unit Nat) :=
  [.job (.push .one () (some 7) true), .job (.next .one false), .job (.next .one false), .clearJobs .two ()]

theorem jobCount_honest_iff_cleared : ∃ s : ClearState Two Unit Nat,
    run clearStep ClearOk clearState₀ clearedJob = some s ∧ s.cleared () = 1 ∧ (Outside s.jobs () → () ∈ s.jobs.globalQueue) := by
  obtain ⟨s, hrun, hr⟩ := reach_of_run clearStep ClearOk (clearState₀ : ClearState Two Unit Nat) clearedJob (by decide)
  have hcleared : (run clearStep ClearOk (clearState₀ : ClearState Two Unit Nat) clearedJob).map (fun s =>
      s.cleared ()) = some 1 := by decide
  rw [hrun, Option.map_some, Option.some.injEq] at hcleared
  exact ⟨s, hrun, hcleared, fun hout => (jobCount_honest_iff hr ()).2.2 hout (hcleared ▸ Nat.one_pos)⟩

/-- **`ClearJobs` leaves the count**: it is 1 with nothing in `_jobs` and nobody inside. -/
theorem clearedJob_count : ∃ s : ClearState Two Unit Nat, ClearReach s ∧ Outside s.jobs () ∧
    (s.jobs.queues ()).jobCount.toInt = 1 ∧ (s.jobs.queues ()).jobs = [] := by
  obtain ⟨s, hrun, hr⟩ := reach_of_run clearStep ClearOk (clearState₀ : ClearState Two Unit Nat) clearedJob (by decide)
  have hs : (run clearStep ClearOk (clearState₀ : ClearState Two Unit Nat) clearedJob).map (fun s =>
      ((s.jobs.threads .one).frames, (s.jobs.threads .two).frames, (s.jobs.queues ()).jobCount,
        (s.jobs.queues ()).jobs)) = some ([], [], 1, []) := by decide
  simp only [hrun, Option.map_some, Option.some.injEq, Prod.mk.injEq] at hs
  obtain ⟨hone, htwo, hcount, hjobs⟩ := hs
  refine ⟨s, hr, fun t f hf => ?_, by rw [hcount]; decide, hjobs⟩
  cases t
  · rw [hone] at hf
    cases hf
  · rw [htwo] at hf
    cases hf

end Geon
