import Mathlib.Algebra.GroupWithZero.Nat
import GeonServer.JobQueue
import GeonServer.Tally
/-!
# JobToken — one executor of a job queue

`_jobCount` is what is in `_jobs`, what is in the batch being executed and what the pushers between `fetch_add` and
`_jobs.Push` will add (`pending`).  The right to execute a queue is a token nobody stores: it is with the pusher that
saw 0, in `GlobalQueue`, or with the thread that popped the queue or is inside `Execute`.  There is one while
`_jobCount` is not 0 and none while it is (`JobInv`).
-/
namespace Geon

open Lts Function

variable {Tid Q Job : Type*} [DecidableEq Tid] [DecidableEq Q]

/-! ## What a thread contributes -/

/-- The tokens of queue `q` a frame stands for. -/
def JobFrame.tokens (q : Q) : JobFrame Q Job → Nat
  | .pushing q' _ _ prevCount => if q' = q ∧ prevCount = 0 then 1 else 0
  | .first q' _ | .popped q' | .popAll q' | .batch q' _ _ | .inJob q' _ _ | .tick q' => if q' = q then 1 else 0

/-- What a frame holds of `_jobCount` of queue `q` that is not in `_jobs`. -/
def JobFrame.held (q : Q) : JobFrame Q Job → Nat
  | .pushing q' _ _ _ => if q' = q then 1 else 0
  | .batch q' jobs _ | .inJob q' jobs _ => if q' = q then jobs.length else 0
  | _ => 0

def JobThread.tokens (q : Q) (th : JobThread Q Job) : Nat := (th.frames.map (JobFrame.tokens q)).sum

def JobThread.held (q : Q) (th : JobThread Q Job) : Nat := (th.frames.map (JobFrame.held q)).sum

variable [Fintype Tid]

/-- The jobs in `_jobs`, in the batch being executed and in the hands of pushers. -/
def pending (s : JobState Tid Q Job) (q : Q) : Nat :=
  (s.queues q).jobs.length + tally (JobThread.held q) s.threads

/-- The pushers that saw 0 and have not acted, the entries of `GlobalQueue`, and the threads that have popped the
queue or are inside its `Execute`. -/
def tokens (s : JobState Tid Q Job) (q : Q) : Nat :=
  tally (JobThread.tokens q) s.threads + s.globalQueue.count q

/-- Fewer than 2³¹ jobs are pending on any queue. -/
def JobsBounded (s : JobState Tid Q Job) : Prop := ∀ q, pending s q < 2 ^ 31

def JobFrame.NonNull : JobFrame Q Job → Prop
  | .pushing _ job _ _ => job ≠ none
  | _ => True

/-- **The token invariant.** -/
structure JobInv (s : JobState Tid Q Job) : Prop where
  count : ∀ q, (s.queues q).jobCount.toNat = pending s q
  token : ∀ q, tokens s q = if pending s q = 0 then 0 else 1
  jobs : ∀ q, none ∉ (s.queues q).jobs
  frames : ∀ t, ∀ f ∈ (s.threads t).frames, f.NonNull

/-- The token invariant where `lost q` of what `_jobCount` of `q` counts is nowhere any more. -/
structure CountInv (lost : Q → Nat) (s : JobState Tid Q Job) : Prop where
  count : ∀ q, (s.queues q).jobCount.toNat = pending s q + lost q
  token : ∀ q, tokens s q = if pending s q + lost q = 0 then 0 else 1
  jobs : ∀ q, none ∉ (s.queues q).jobs
  frames : ∀ t, ∀ f ∈ (s.threads t).frames, f.NonNull

def CountBounded (lost : Q → Nat) (s : JobState Tid Q Job) : Prop := ∀ q, pending s q + lost q < 2 ^ 31

variable {s : JobState Tid Q Job} {lost : Q → Nat}

omit [DecidableEq Tid] in
/-- The token invariant is the case in which nothing is lost. -/
theorem jobInv_iff : JobInv s ↔ CountInv (fun _ => 0) s :=
  ⟨fun h => ⟨h.count, h.token, h.jobs, h.frames⟩, fun h => ⟨h.count, h.token, h.jobs, h.frames⟩⟩

omit [DecidableEq Tid] in
theorem jobInv₀ : JobInv (jobState₀ : JobState Tid Q Job) := by
  have hp : ∀ q, pending (jobState₀ : JobState Tid Q Job) q = 0 := fun q => by
    simp only [pending, jobState₀, List.length_nil, Nat.zero_add]
    exact tally_const_zero _ _ rfl
  have ht : ∀ q, tokens (jobState₀ : JobState Tid Q Job) q = 0 := fun q => by
    simp only [tokens, jobState₀, List.count_nil, Nat.add_zero]
    exact tally_const_zero _ _ rfl
  refine ⟨fun q => ?_, fun q => ?_, fun q => ?_, fun t f hf => ?_⟩
  · rw [hp q]; rfl
  · rw [ht q, if_pos (hp q)]
  · simp [jobState₀]
  · simp [jobState₀] at hf

/-- **One thread steps on one queue**: `_jobCount` moves with what the thread holds and what is in `_jobs`, and the
thread's tokens and `GlobalQueue`'s with whether `_jobCount` is 0. -/
theorem CountInv.set (hI : CountInv lost s) {t : Tid} {th : JobThread Q Job} {q : Q} {jq : JobQueue Tid Job}
    {g : List Q}
    (hcount : jq.jobCount.toNat + (s.threads t).held q + (s.queues q).jobs.length =
      (s.queues q).jobCount.toNat + th.held q + jq.jobs.length)
    (htoken : th.tokens q + g.count q + (if (s.queues q).jobCount.toNat = 0 then 0 else 1) =
      (s.threads t).tokens q + s.globalQueue.count q + (if jq.jobCount.toNat = 0 then 0 else 1))
    (hother : ∀ p, p ≠ q → th.held p = (s.threads t).held p ∧ th.tokens p = (s.threads t).tokens p ∧
      g.count p = s.globalQueue.count p)
    (hjobs : none ∉ jq.jobs) (hframes : ∀ f ∈ th.frames, f.NonNull) : CountInv lost (s.set t th q jq g) := by
  have hpend : ∀ p, (update s.queues q jq p).jobCount.toNat = pending (s.set t th q jq g) p + lost p := by
    intro p
    have hc := hI.count p
    have hu := tally_update (JobThread.held p) s.threads t th
    simp only [pending, JobState.set_queues, JobState.set_threads] at hc ⊢
    by_cases hp : p = q
    · subst hp
      rw [update_self]
      omega
    · rw [update_of_ne hp]
      have := (hother p hp).1
      omega
  refine ⟨hpend, fun p => ?_, fun p => ?_, fun u => ?_⟩
  · rw [← hpend p]
    have ht := hI.token p
    rw [← hI.count p] at ht
    have hu := tally_update (JobThread.tokens p) s.threads t th
    simp only [tokens, JobState.set_threads, JobState.set_globalQueue] at ht ⊢
    by_cases hp : p = q
    · subst hp
      rw [update_self]
      omega
    · rw [update_of_ne hp]
      have := (hother p hp).2
      omega
  · simp only [JobState.set_queues]
    by_cases hp : p = q
    · subst hp
      simpa only [update_self] using hjobs
    · simpa only [update_of_ne hp] using hI.jobs p
  · simp only [JobState.set_threads]
    by_cases hut : u = t
    · subst hut
      simpa only [update_self] using hframes
    · simpa only [update_of_ne hut] using hI.frames u

omit [DecidableEq Tid] in
theorem CountInv.tail (hI : CountInv lost s) {t : Tid} {f : JobFrame Q Job} {fs : List (JobFrame Q Job)}
    (hf : (s.threads t).frames = f :: fs) : ∀ g ∈ fs, g.NonNull := fun g hg =>
  hI.frames t g (by rw [hf]; exact List.mem_cons_of_mem _ hg)

omit [DecidableEq Tid] in
theorem CountInv.count_pos (hI : CountInv lost s) {t : Tid} {f : JobFrame Q Job} {fs : List (JobFrame Q Job)}
    {q : Q} (hf : (s.threads t).frames = f :: fs) (h : f.tokens q = 1) : 0 < (s.queues q).jobCount.toNat := by
  have ht := hI.token q
  rw [← hI.count q] at ht
  have hle := le_tally (JobThread.tokens q) s.threads t
  have : 1 ≤ (s.threads t).tokens q := by
    simp only [JobThread.tokens, hf, List.map_cons, List.sum_cons]
    omega
  simp only [tokens] at ht
  split at ht <;> omega

omit [DecidableEq Tid] in
theorem CountInv.held_le (hI : CountInv lost s) {t : Tid} {f : JobFrame Q Job} {fs : List (JobFrame Q Job)}
    (hf : (s.threads t).frames = f :: fs) (q : Q) : f.held q ≤ (s.queues q).jobCount.toNat := by
  have hc := hI.count q
  have hle := le_tally (JobThread.held q) s.threads t
  simp only [JobThread.held, hf, List.map_cons, List.sum_cons] at hle
  simp only [pending] at hc
  omega

/-- `static_cast<int32>` of a small size. -/
theorem toNat_size {n : Nat} (h : n < 2 ^ 31) : (BitVec.ofNat 32 n).toNat = n := by
  rw [BitVec.toNat_ofNat]
  omega

/-! ## The steps -/

/-- **A token changes its form**: what the thread holds, the counts and the queue stay. -/
theorem CountInv.pass (hI : CountInv lost s) {t : Tid} {f f' : JobFrame Q Job} {fs : List (JobFrame Q Job)} {q : Q}
    {c : Option Q} {jq : JobQueue Tid Job} (hf : (s.threads t).frames = f :: fs) (hheld : ∀ p, f'.held p = f.held p)
    (htoken : ∀ p, f'.tokens p = f.tokens p) (hcount : jq.jobCount = (s.queues q).jobCount)
    (hjobs : jq.jobs = (s.queues q).jobs) (hn : f'.NonNull) :
    CountInv lost (s.set t ⟨c, f' :: fs, (s.threads t).called⟩ q jq s.globalQueue) := by
  refine hI.set ?_ ?_ (fun p _ => ⟨?_, ?_, rfl⟩) (hjobs ▸ hI.jobs q) ?_
  · simp only [JobThread.held, hf, List.map_cons, hheld, hcount, hjobs]
  · simp only [JobThread.tokens, hf, List.map_cons, htoken, hcount]
  · simp only [JobThread.held, hf, List.map_cons, hheld]
  · simp only [JobThread.tokens, hf, List.map_cons, htoken]
  · exact List.forall_mem_cons.2 ⟨hn, hI.tail hf⟩

/-- **The token goes to `GlobalQueue`.** -/
theorem CountInv.handOver (hI : CountInv lost s) {t : Tid} {f : JobFrame Q Job} {fs : List (JobFrame Q Job)} {q : Q}
    {c : Option Q} (hf : (s.threads t).frames = f :: fs) (hheld : ∀ p, f.held p = 0)
    (htoken : ∀ p, f.tokens p = if q = p then 1 else 0) :
    CountInv lost (s.set t ⟨c, fs, (s.threads t).called⟩ q (s.queues q) (s.globalQueue ++ [q])) := by
  refine hI.set ?_ ?_ (fun p hp => ⟨?_, ?_, ?_⟩) (hI.jobs q) (hI.tail hf)
  · simp only [JobThread.held, hf, List.map_cons, List.sum_cons, hheld]
    omega
  · simp only [JobThread.tokens, hf, List.map_cons, List.sum_cons, htoken, List.count_append, List.count_singleton_self,
      if_true]
    omega
  · simp only [JobThread.held, hf, List.map_cons, List.sum_cons, hheld]
    omega
  · simp only [JobThread.tokens, hf, List.map_cons, List.sum_cons, htoken, if_neg (Ne.symm hp)]
    omega
  · simp [List.count_append, Ne.symm hp]

/-- **`fetch_sub` after a batch**: the token goes exactly when `_jobCount` reaches 0. -/
theorem CountInv.done (hI : CountInv lost s) {t : Tid} {fs fs' : List (JobFrame Q Job)} {q : Q} {jobs : List Job}
    {i : Nat} {c : Option Q} (hf : (s.threads t).frames = .batch q jobs i :: fs) (hlen : jobs.length < 2 ^ 31)
    (hfs : (s.queues q).jobCount = BitVec.ofNat 32 jobs.length ∧ fs' = fs ∨
      (s.queues q).jobCount ≠ BitVec.ofNat 32 jobs.length ∧ fs' = .tick q :: fs) :
    CountInv lost (s.set t ⟨c, fs', (s.threads t).called⟩ q
      { s.queues q with jobCount := (s.queues q).jobCount - BitVec.ofNat 32 jobs.length } s.globalQueue) := by
  have hpos := hI.count_pos hf (q := q) (by simp [JobFrame.tokens])
  have hheld := hI.held_le hf q
  simp only [JobFrame.held, if_true] at hheld
  have hof := toNat_size hlen
  have hsub : ((s.queues q).jobCount - BitVec.ofNat 32 jobs.length).toNat =
      (s.queues q).jobCount.toNat - jobs.length := by
    have := (s.queues q).jobCount.isLt
    rw [BitVec.toNat_sub, hof]
    omega
  have hsame : (s.queues q).jobCount = BitVec.ofNat 32 jobs.length ↔
      (s.queues q).jobCount.toNat = jobs.length := by
    rw [← BitVec.toNat_inj, hof]
  rw [hsame, Ne, hsame] at hfs
  refine hI.set ?_ ?_ (fun p hp => ⟨?_, ?_, rfl⟩) (hI.jobs q) ?_
  · simp only [hsub, JobThread.held, hf, List.map_cons, List.sum_cons, JobFrame.held, if_true]
    rcases hfs with ⟨-, rfl⟩ | ⟨-, rfl⟩
    · omega
    · simp only [List.map_cons, List.sum_cons, JobFrame.held]
      omega
  · simp only [hsub, JobThread.tokens, hf, List.map_cons, List.sum_cons, JobFrame.tokens, if_true]
    rcases hfs with ⟨heq, rfl⟩ | ⟨hne, rfl⟩
    · rw [if_neg (by omega), if_pos (by omega)]
      omega
    · rw [if_neg (by omega), if_neg (by omega)]
      simp only [List.map_cons, List.sum_cons, JobFrame.tokens, if_true]
  · rcases hfs with ⟨-, rfl⟩ | ⟨-, rfl⟩ <;>
      simp [JobThread.held, hf, JobFrame.held, Ne.symm hp]
  · rcases hfs with ⟨-, rfl⟩ | ⟨-, rfl⟩ <;>
      simp [JobThread.tokens, hf, JobFrame.tokens, Ne.symm hp]
  · rcases hfs with ⟨-, rfl⟩ | ⟨-, rfl⟩
    · exact hI.tail hf
    · exact List.forall_mem_cons.2 ⟨trivial, hI.tail hf⟩

omit [DecidableEq Tid] in
theorem CountInv.batch_lt (hI : CountInv lost s) (hb : CountBounded lost s) {t : Tid} {q : Q} {jobs : List Job}
    {i : Nat} {fs : List (JobFrame Q Job)} (hf : (s.threads t).frames = .batch q jobs i :: fs) : jobs.length < 2 ^ 31 := by
  have h1 := hI.held_le hf q
  have h2 := hb q
  rw [hI.count q] at h1
  simp only [JobFrame.held, if_true] at h1
  omega

omit [DecidableEq Tid] in
theorem JobInv.batch_lt (hI : JobInv s) (hb : JobsBounded s) {t : Tid} {q : Q} {jobs : List Job} {i : Nat}
    {fs : List (JobFrame Q Job)} (hf : (s.threads t).frames = .batch q jobs i :: fs) : jobs.length < 2 ^ 31 :=
  (jobInv_iff.1 hI).batch_lt hb hf

/-- **A thread inside `Push` or `Execute` takes a step.** -/
theorem CountInv.next (hI : CountInv lost s) (hb : CountBounded lost s) {t : Tid} {timeout : Bool}
    {s' : JobState Tid Q Job} (he : jobNext s t timeout = some s') : CountInv lost s' := by
  cases hf : (s.threads t).frames with
  | nil => simp only [jobNext, hf] at he; cases he
  | cons f fs =>
  cases f <;> simp only [jobNext, hf] at he
  case pushing q job pushOnly prevCount =>
    cases he
    have hjob : (JobFrame.pushing q job pushOnly prevCount).NonNull :=
      hI.frames t _ (by rw [hf]; exact List.mem_cons_self ..)
    refine hI.set ?_ ?_ (fun p hp => ⟨?_, ?_, rfl⟩) ?_ ?_
    · simp only [JobThread.held, hf, List.map_cons, List.sum_cons, JobFrame.held, if_true, List.length_append,
        List.length_singleton]
      split
      · simp only [List.map_cons, List.sum_cons, JobFrame.held]
        omega
      · omega
    · simp only [JobThread.tokens, hf, List.map_cons, List.sum_cons, JobFrame.tokens, true_and]
      split
      · simp only [List.map_cons, List.sum_cons, JobFrame.tokens, if_true]
      · omega
    · split <;> simp [JobThread.held, hf, JobFrame.held, Ne.symm hp]
    · split <;> simp [JobThread.tokens, hf, JobFrame.tokens, Ne.symm hp]
    · simp only [List.mem_append, List.mem_singleton, not_or]
      exact ⟨hI.jobs q, fun h => hjob h.symm⟩
    · split
      · exact List.forall_mem_cons.2 ⟨trivial, hI.tail hf⟩
      · exact hI.tail hf
  case first q pushOnly =>
    split at he <;> cases he
    · exact hI.pass hf (fun _ => rfl) (fun _ => rfl) rfl rfl trivial
    · exact hI.handOver hf (fun _ => rfl) (fun _ => rfl)
  case popped q =>
    cases he
    exact hI.pass hf (fun _ => rfl) (fun _ => rfl) rfl rfl trivial
  case popAll q =>
    cases he
    obtain ⟨hall, hrest⟩ := popAll_eq _ (hI.jobs q)
    have hlen : (popAll (s.queues q).jobs).1.length = (s.queues q).jobs.length := by
      conv_rhs => rw [← hall]
      simp
    refine hI.set ?_ ?_ (fun p hp => ⟨?_, ?_, rfl⟩) (by simp [hrest]) ?_
    · simp only [JobThread.held, hf, List.map_cons, List.sum_cons, JobFrame.held, if_true, hrest, List.length_nil, hlen]
      omega
    · simp only [JobThread.tokens, hf, List.map_cons, List.sum_cons, JobFrame.tokens]
    · simp [JobThread.held, hf, JobFrame.held, Ne.symm hp]
    · simp [JobThread.tokens, hf, JobFrame.tokens]
    · exact List.forall_mem_cons.2 ⟨trivial, hI.tail hf⟩
  case batch q jobs i =>
    have hlen := hI.batch_lt hb hf
    split at he
    · split at he <;> cases he
      exact hI.pass hf (fun _ => rfl) (fun _ => rfl) rfl rfl trivial
    · split at he <;> cases he
      · exact hI.done hf hlen (.inl ⟨‹_›, rfl⟩)
      · exact hI.done hf hlen (.inr ⟨‹_›, rfl⟩)
  case inJob => cases he
  case tick q =>
    split at he <;> cases he
    · exact hI.handOver hf (fun _ => rfl) (fun _ => rfl)
    · exact hI.pass hf (fun _ => rfl) (fun _ => rfl) rfl rfl trivial

/-- Pushes are of jobs, as `DoAsync` and `DoTimer` make them, not of null pointers. -/
def PushesJobs (_ : JobState Tid Q Job) (a : JobAct Tid Q Job) (_ : JobState Tid Q Job) : Prop :=
  match a with
  | .push _ _ job _ => job ≠ none
  | .pop _ | .next _ _ | .finish _ => True

def JobsOk (s : JobState Tid Q Job) (a : JobAct Tid Q Job) (s' : JobState Tid Q Job) : Prop :=
  JobsBounded s' ∧ PushesJobs s a s'

instance (s : JobState Tid Q Job) (a : JobAct Tid Q Job) (s' : JobState Tid Q Job) : Decidable (PushesJobs s a s') :=
  match a with
  | .push _ _ none _ => .isFalse (fun h => h rfl)
  | .push _ _ (some _) _ => .isTrue (fun h => nomatch h)
  | .pop _ | .next _ _ | .finish _ => .isTrue trivial

instance [Fintype Q] (s : JobState Tid Q Job) (a : JobAct Tid Q Job) (s' : JobState Tid Q Job) :
    Decidable (JobsOk s a s') :=
  have : Decidable (JobsBounded s') := inferInstanceAs (Decidable (∀ _, _))
  inferInstanceAs (Decidable (_ ∧ _))

/-- **The step lemma of the job queues.** -/
theorem jobStep_countInv (hI : CountInv lost s) (hb : CountBounded lost s) {a : JobAct Tid Q Job}
    {s' : JobState Tid Q Job} (he : jobStep s a = some s') (hok : PushesJobs s a s') : CountInv lost s' := by
  cases a with
  | next t timeout => exact hI.next hb he
  | finish t =>
    simp only [jobStep] at he
    split at he <;> cases he
    rename_i hf
    exact hI.pass hf (fun _ => rfl) (fun _ => rfl) rfl rfl trivial
  | pop t =>
    simp only [jobStep] at he
    split at he <;> cases he
    rename_i q g hf hg
    refine hI.set ?_ ?_ (fun p hp => ⟨?_, ?_, ?_⟩) (hI.jobs q) ?_
    · simp [JobThread.held, hf, JobFrame.held]
    · simp [JobThread.tokens, hf, hg, JobFrame.tokens]
      omega
    · simp [JobThread.held, hf, JobFrame.held]
    · simp [JobThread.tokens, hf, JobFrame.tokens, Ne.symm hp]
    · simp [hg, Ne.symm hp]
    · exact List.forall_mem_singleton.2 trivial
  | push t q job pushOnly =>
    simp only [jobStep] at he
    split at he <;> cases he
    have h1 : (1 : BitVec 32).toNat = 1 := rfl
    have h0 : (0 : BitVec 32).toNat = 0 := rfl
    have hadd : ((s.queues q).jobCount + 1).toNat = (s.queues q).jobCount.toNat + 1 := by
      have := hb q
      rw [← hI.count q] at this
      rw [BitVec.toNat_add, h1]
      omega
    refine hI.set ?_ ?_ (fun p hp => ⟨?_, ?_, rfl⟩) (hI.jobs q) ?_
    · simp only [hadd, JobThread.held, List.map_cons, List.sum_cons, JobFrame.held, if_true]
      omega
    · simp only [hadd, JobThread.tokens, List.map_cons, List.sum_cons, JobFrame.tokens, true_and,
        ← BitVec.toNat_inj, h0]
      split
      · rw [if_neg (by omega)]
        omega
      · rw [if_neg (by omega)]
        omega
    · simp [JobThread.held, JobFrame.held, Ne.symm hp]
    · simp [JobThread.tokens, JobFrame.tokens, Ne.symm hp]
    · exact List.forall_mem_cons.2 ⟨hok, hI.frames t⟩

theorem jobStep_inv (hI : JobInv s) (hb : JobsBounded s) {a : JobAct Tid Q Job} {s' : JobState Tid Q Job}
    (he : jobStep s a = some s') (hok : JobsOk s a s') : JobInv s' :=
  jobInv_iff.2 (jobStep_countInv (jobInv_iff.1 hI) hb he hok.2)

theorem jobStep_pending {s s' : JobState Tid Q Job} {a : JobAct Tid Q Job} (he : jobStep s a = some s') (p : Q) :
    pending s' p ≤ pending s p + 1 := by
  have hset : ∀ {t : Tid} {th : JobThread Q Job} {q : Q} {jq : JobQueue Tid Job} {g : List Q},
      s.set t th q jq g = s' →
      th.held q + jq.jobs.length ≤ (s.threads t).held q + (s.queues q).jobs.length + 1 →
      (∀ p, p ≠ q → th.held p ≤ (s.threads t).held p) → pending s' p ≤ pending s p + 1 := by
    rintro t th q jq g rfl hself hother
    have hu := tally_update (JobThread.held p) s.threads t th
    simp only [pending, JobState.set_queues, JobState.set_threads]
    by_cases hp : p = q
    · subst hp
      rw [update_self]
      omega
    · rw [update_of_ne hp]
      have := hother p hp
      omega
  cases a with
  | push t q job pushOnly =>
    simp only [jobStep] at he
    split at he
    · refine hset (Option.some.inj he) ?_ (fun p hp => ?_)
      · simp [JobThread.held, JobFrame.held]
        omega
      · simp [JobThread.held, JobFrame.held, Ne.symm hp]
    · cases he
  | pop t =>
    simp only [jobStep] at he
    split at he
    · exact hset (Option.some.inj he) (by simp [JobThread.held, JobFrame.held]; omega)
        (fun p hp => by simp [JobThread.held, JobFrame.held])
    · cases he
  | finish t =>
    simp only [jobStep] at he
    split at he
    · rename_i hf
      exact hset (Option.some.inj he) (by simp [JobThread.held, JobFrame.held, hf])
        (fun p hp => by simp [JobThread.held, JobFrame.held, hf])
    · cases he
  | next t timeout =>
    cases hf : (s.threads t).frames with
    | nil =>
      simp only [jobStep, jobNext, hf] at he
      cases he
    | cons f fs =>
    cases f <;> simp only [jobStep, jobNext, hf] at he
    case pushing q job pushOnly prevCount =>
      refine hset (Option.some.inj he) ?_ (fun p hp => ?_)
      · split <;> simp [JobThread.held, JobFrame.held, hf] <;> omega
      · split <;> simp [JobThread.held, JobFrame.held, hf]
    case first | tick =>
      split at he <;> exact hset (Option.some.inj he) (by simp [JobThread.held, JobFrame.held, hf])
        (fun p hp => by simp [JobThread.held, JobFrame.held, hf])
    case popped q =>
      exact hset (Option.some.inj he) (by simp [JobThread.held, JobFrame.held, hf])
        (fun p hp => by simp [JobThread.held, JobFrame.held, hf])
    case popAll q =>
      have := popAll_length (s.queues q).jobs
      exact hset (Option.some.inj he) (by simp [JobThread.held, JobFrame.held, hf]; omega)
        (fun p hp => by simp [JobThread.held, JobFrame.held, hf, Ne.symm hp])
    case batch q jobs i =>
      split at he
      · split at he
        · cases he
        · exact hset (Option.some.inj he) (by simp [JobThread.held, JobFrame.held, hf])
            (fun p hp => by simp [JobThread.held, JobFrame.held, hf])
      · split at he <;> exact hset (Option.some.inj he) (by simp [JobThread.held, JobFrame.held, hf]; omega)
          (fun p hp => by simp [JobThread.held, JobFrame.held, hf])
    case inJob => cases he

/-- The states of the runs in which jobs are pushed and fewer than 2³¹ are pending. -/
def JobReach (s : JobState Tid Q Job) : Prop := Reach jobStep JobsOk jobState₀ s

theorem JobReach.inv (h : JobReach s) : JobInv s ∧ JobsBounded s := by
  refine Reach.inv (P := fun s => JobInv s ∧ JobsBounded s) h ⟨jobInv₀, fun q => ?_⟩
    (fun _ _ _ _ hP he hok => ⟨jobStep_inv hP.1 hP.2 he hok, hok.1⟩)
  rw [← jobInv₀.count q]
  exact Nat.two_pow_pos 31

/-! ## A single executor -/

def Executing (s : JobState Tid Q Job) (t : Tid) (q : Q) : Prop :=
  ∃ jobs i, .inJob q jobs i ∈ (s.threads t).frames

theorem JobThread.tokens_pos {th : JobThread Q Job} {q : Q} {f : JobFrame Q Job} (hf : f ∈ th.frames)
    (h : f.tokens q = 1) : 1 ≤ th.tokens q := by
  rw [← h]
  exact List.single_le_sum (fun _ _ => Nat.zero_le _) _ (List.mem_map_of_mem hf)

/-- **A job queue has a single executor**: in every interleaving `_jobCount` counts the pending jobs, there is exactly
one token for the queue while it is positive and none while it is 0, and no two threads execute jobs of the queue at
the same time. -/
theorem job_queue_single_executor (h : JobReach s) (q : Q) :
    (s.queues q).jobCount.toInt = pending s q ∧
    (0 < (s.queues q).jobCount.toInt → tokens s q = 1) ∧
    ((s.queues q).jobCount.toInt = 0 → tokens s q = 0) ∧
    ∀ t u, Executing s t q → Executing s u q → t = u := by
  obtain ⟨hI, hb⟩ := h.inv
  have hc := hI.count q
  have ht := hI.token q
  have hbq := hb q
  have hint : (s.queues q).jobCount.toInt = pending s q := by
    rw [BitVec.toInt_eq_toNat_of_lt (by omega), hc]
  refine ⟨hint, fun hpos => ?_, fun hz => ?_, ?_⟩
  · rw [ht, if_neg (by omega)]
  · rw [ht, if_pos (by omega)]
  · rintro t u ⟨jobs, i, hmt⟩ ⟨jobs', i', hmu⟩
    by_contra hne
    have h1 := JobThread.tokens_pos (q := q) hmt (by simp [JobFrame.tokens])
    have h2 := JobThread.tokens_pos (q := q) hmu (by simp [JobFrame.tokens])
    have h3 := add_le_tally (JobThread.tokens q) s.threads hne
    simp only [tokens] at ht
    split at ht <;> omega

/-- Thread one pushes job 7 and runs it; thread two pushes job 8 meanwhile. -/
def twoJobs : List (JobAct Two Unit Nat) :=
  [.push .one () (some 7) false, .next .one false, .next .one false, .push .two () (some 8) false, .next .one false,
   .next .one false,
   .next .two false]

theorem job_queue_single_executor_two : ∃ s,
    run jobStep JobsOk (jobState₀ : JobState Two Unit Nat) twoJobs = some s ∧
    Executing s .one () ∧ (s.queues ()).jobCount.toInt = 2 ∧ tokens s () = 1 ∧ ¬ Executing s .two () := by
  obtain ⟨s, hrun, hr⟩ := reach_of_run jobStep JobsOk (jobState₀ : JobState Two Unit Nat) twoJobs (by decide)
  have hs : (run jobStep JobsOk (jobState₀ : JobState Two Unit Nat) twoJobs).map (fun s =>
      ((s.threads .one).frames, (s.queues ()).jobCount)) = some ([.inJob () [7] 0], 2) := by decide
  simp only [hrun, Option.map_some, Option.some.injEq, Prod.mk.injEq] at hs
  have h0 : Executing s .one () := ⟨[7], 0, by rw [hs.1]; exact List.mem_singleton.2 rfl⟩
  have hc : (s.queues ()).jobCount.toInt = 2 := by rw [hs.2]; decide
  obtain ⟨-, hone, -, hunique⟩ := job_queue_single_executor hr ()
  exact ⟨s, hrun, h0, hc, hone (by omega), fun h1 => absurd (hunique .one .two h0 h1) (by decide)⟩

end Geon
