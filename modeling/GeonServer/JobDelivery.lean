import GeonServer.JobToken
/-!
# JobDelivery — every job runs, once and in order

The jobs of a queue are executed in the order they entered `_jobs`, none skipped and none twice, and when nobody has
to do with the queue any more all of them have been.  What a step means to the order is one of five things
(`JobEffect`); the token of JobToken keeps two threads from taking batches at once.
-/
namespace Geon

open Lts Function

variable {Tid Q Job : Type*} [DecidableEq Tid] [DecidableEq Q]

/-! ## What a thread carries -/

/-- The jobs of the batch that have not been started. -/
def JobFrame.rest (q : Q) : JobFrame Q Job → List Job
  | .batch q' jobs i => if q' = q then jobs.drop i else []
  | .inJob q' jobs i => if q' = q then jobs.drop (i + 1) else []
  | _ => []

/-- The job that is about to enter `_jobs`. -/
def JobFrame.inPush (q : Q) : JobFrame Q Job → List (Option Job)
  | .pushing q' job _ _ => if q' = q then [job] else []
  | _ => []

def JobThread.rest (q : Q) (th : JobThread Q Job) : List Job := th.frames.flatMap (JobFrame.rest q)

def JobThread.inPush (q : Q) (th : JobThread Q Job) : List (Option Job) := th.frames.flatMap (JobFrame.inPush q)

/-- The calls of `Push` on queue `q` the thread has made. -/
def JobThread.calls (q : Q) (th : JobThread Q Job) : List (Option Job) :=
  (th.called.filter (fun e => decide (e.1 = q))).map Prod.snd

/-- The jobs of one thread in the order they entered `_jobs`. -/
def JobQueue.enteredBy (t : Tid) (jq : JobQueue Tid Job) : List (Option Job) :=
  (jq.entered.filter (fun e => decide (e.1 = t))).map Prod.snd

def JobFrame.isInJob : JobFrame Q Job → Bool
  | .inJob _ _ _ => true
  | _ => false

variable {s s' : JobState Tid Q Job}

/-! ## What a step does -/

/-- **The steps as the order of the jobs sees them.** -/
inductive JobEffect (s : JobState Tid Q Job) (t : Tid) : JobState Tid Q Job → Prop
  /-- `Push` is called. -/
  | call {q : Q} {job : Option Job} {pushOnly : Bool} {prevCount count : BitVec 32}
      (hfree : (s.threads t).free = true) :
      JobEffect s t (s.set t { s.threads t with
        frames := .pushing q job pushOnly prevCount :: (s.threads t).frames,
        called := (s.threads t).called ++ [(q, job)] } q { s.queues q with jobCount := count } s.globalQueue)
  /-- The job enters `_jobs`. -/
  | enter {q : Q} {job : Option Job} {pushOnly : Bool} {prevCount : BitVec 32} {fs fs' : List (JobFrame Q Job)}
      (hf : (s.threads t).frames = .pushing q job pushOnly prevCount :: fs)
      (hfs : fs' = .first q pushOnly :: fs ∨ fs' = fs) :
      JobEffect s t (s.set t { s.threads t with frames := fs' } q
        { s.queues q with
          jobs := (s.queues q).jobs ++ [job], entered := (s.queues q).entered ++ [(t, job)] } s.globalQueue)
  /-- `PopAll` takes the batch. -/
  | take {q : Q} {fs : List (JobFrame Q Job)} (hf : (s.threads t).frames = .popAll q :: fs) :
      JobEffect s t (s.set t { s.threads t with frames := .batch q (popAll (s.queues q).jobs).1 0 :: fs } q
        { s.queues q with jobs := (popAll (s.queues q).jobs).2 } s.globalQueue)
  /-- A job of the batch is started. -/
  | start {q : Q} {jobs : List Job} {i : Nat} {job : Job} {fs : List (JobFrame Q Job)}
      (hf : (s.threads t).frames = .batch q jobs i :: fs) (hjob : jobs[i]? = some job) :
      JobEffect s t (s.set t { s.threads t with frames := .inJob q jobs i :: fs } q
        { s.queues q with executed := (s.queues q).executed ++ [job] } s.globalQueue)
  /-- No job moves. -/
  | quiet {q : Q} {current : Option Q} {fs : List (JobFrame Q Job)} {count : BitVec 32} {g : List Q}
      (hrest : ∀ p, fs.flatMap (JobFrame.rest p) = (s.threads t).rest p)
      (hpush : ∀ p, fs.flatMap (JobFrame.inPush p) = (s.threads t).inPush p)
      (htail : ∀ f ∈ fs.tail, f ∈ (s.threads t).frames.tail) :
      JobEffect s t (s.set t { s.threads t with current := current, frames := fs } q
        { s.queues q with jobCount := count } g)

/-- A step that changes or drops the innermost frame only, which carries no job. -/
theorem JobEffect.head {t : Tid} {f : JobFrame Q Job} {fs fs' : List (JobFrame Q Job)} {q : Q}
    {current : Option Q} {count : BitVec 32} {g : List Q} (hf : (s.threads t).frames = f :: fs)
    (hrest : ∀ p, f.rest p = []) (hpush : ∀ p, f.inPush p = [])
    (hfs : fs' = fs ∨ ∃ f', fs' = f' :: fs ∧ (∀ p, f'.rest p = []) ∧ ∀ p, f'.inPush p = []) :
    JobEffect s t (s.set t { s.threads t with current := current, frames := fs' } q
      { s.queues q with jobCount := count } g) := by
  rcases hfs with rfl | ⟨f', rfl, hrest', hpush'⟩
  · refine .quiet (fun p => ?_) (fun p => ?_) (fun f' hf' => ?_)
    · simp [JobThread.rest, hf, hrest p]
    · simp [JobThread.inPush, hf, hpush p]
    · rw [hf]
      exact List.mem_of_mem_tail hf'
  · refine .quiet (fun p => ?_) (fun p => ?_) (fun f' hf' => ?_)
    · simp [JobThread.rest, hf, hrest p, hrest' p]
    · simp [JobThread.inPush, hf, hpush p, hpush' p]
    · rw [hf]
      exact hf'

variable [Fintype Tid]

/-- **Every step is one of the five.** -/
theorem jobStep_effect (hI : JobInv s) (hb : JobsBounded s) {a : JobAct Tid Q Job} (he : jobStep s a = some s') :
    ∃ t, JobEffect s t s' := by
  cases a with
  | push t q job pushOnly =>
    simp only [jobStep] at he
    split at he <;> cases he
    exact ⟨t, .call ‹_›⟩
  | pop t =>
    simp only [jobStep] at he
    split at he <;> cases he
    rename_i q g hf hg
    refine ⟨t, .quiet (fun p => ?_) (fun p => ?_) (fun f hf' => ?_)⟩
    · simp [JobThread.rest, hf, JobFrame.rest]
    · simp [JobThread.inPush, hf, JobFrame.inPush]
    · simp at hf'
  | finish t =>
    simp only [jobStep] at he
    split at he <;> cases he
    rename_i q jobs i fs hf
    refine ⟨t, .quiet (fun p => ?_) (fun p => ?_) (fun f hf' => ?_)⟩
    · simp [JobThread.rest, hf, JobFrame.rest]
    · simp [JobThread.inPush, hf, JobFrame.inPush]
    · rwa [hf]
  | next t timeout =>
    refine ⟨t, ?_⟩
    simp only [jobStep] at he
    cases hf : (s.threads t).frames with
    | nil => simp only [jobNext, hf] at he; cases he
    | cons f fs =>
    cases f <;> simp only [jobNext, hf] at he
    case pushing q job pushOnly prevCount =>
      cases he
      refine .enter hf ?_
      split
      · exact .inl rfl
      · exact .inr rfl
    case first q pushOnly =>
      split at he <;> cases he
      · exact .head hf (fun _ => rfl) (fun _ => rfl) (.inr ⟨_, rfl, fun _ => rfl, fun _ => rfl⟩)
      · exact .head hf (fun _ => rfl) (fun _ => rfl) (.inl rfl)
    case popped q =>
      cases he
      exact .head hf (fun _ => rfl) (fun _ => rfl) (.inr ⟨_, rfl, fun _ => rfl, fun _ => rfl⟩)
    case popAll q =>
      cases he
      exact .take hf
    case inJob => cases he
    case tick q =>
      split at he <;> cases he
      · exact .head hf (fun _ => rfl) (fun _ => rfl) (.inl rfl)
      · exact .head hf (fun _ => rfl) (fun _ => rfl) (.inr ⟨_, rfl, fun _ => rfl, fun _ => rfl⟩)
    case batch q jobs i =>
      split at he
      · split at he <;> cases he
        exact .start hf ‹_›
      · -- the loop of `Execute` has run through the whole batch: its length fits in an `int32`
        rename_i hi
        have hlen : jobs.length < 2 ^ 31 := hI.batch_lt hb hf
        have hof := toNat_size hlen
        have hint := BitVec.toInt_eq_toNat_of_lt (x := BitVec.ofNat 32 jobs.length) (by omega)
        have hrest : ∀ p, (JobFrame.batch q jobs i).rest p = [] := fun p => by
          simp only [JobFrame.rest]
          split
          · exact List.drop_eq_nil_of_le (by omega)
          · rfl
        split at he <;> cases he
        · exact .head hf hrest (fun _ => rfl) (.inl rfl)
        · exact .head hf hrest (fun _ => rfl) (.inr ⟨_, rfl, fun _ => rfl, fun _ => rfl⟩)

/-! ## The order of the jobs -/

/-- **What is below the innermost frame is a running job.** -/
def StackOk (s : JobState Tid Q Job) : Prop := ∀ t, ∀ f ∈ (s.threads t).frames.tail, f.isInJob = true

/-- **The jobs of a thread enter in the order of its calls**, the last one perhaps still on its way. -/
def CallsEntered (s : JobState Tid Q Job) : Prop :=
  ∀ t q, (s.queues q).enteredBy t ++ (s.threads t).inPush q = (s.threads t).calls q

/-- **What has entered a queue is what was executed, what is left of the batch and what is in `_jobs`.** -/
structure Delivered (s : JobState Tid Q Job) : Prop where
  running : ∀ t q, (s.threads t).rest q ≠ [] → (s.queues q).entered.map Prod.snd =
    (s.queues q).executed.map some ++ ((s.threads t).rest q).map some ++ (s.queues q).jobs
  resting : ∀ q, (∀ t, (s.threads t).rest q = []) → (s.queues q).entered.map Prod.snd =
    (s.queues q).executed.map some ++ (s.queues q).jobs

omit [Fintype Tid] [DecidableEq Tid] [DecidableEq Q] in
theorem isInJob_of_free {th : JobThread Q Job} (h : th.free = true) (htail : ∀ f ∈ th.frames.tail, f.isInJob = true) :
    ∀ f ∈ th.frames, f.isInJob = true := by
  unfold JobThread.free at h
  split at h
  · rename_i hf
    simp [hf]
  · rename_i hf
    rw [hf] at htail ⊢
    exact List.forall_mem_cons.2 ⟨rfl, htail⟩
  · cases h

omit [Fintype Tid] in
theorem StackOk.set (h : StackOk s) {t : Tid} {th : JobThread Q Job} {q : Q} {jq : JobQueue Tid Job} {g : List Q}
    (hth : ∀ f ∈ th.frames.tail, f.isInJob = true) : StackOk (s.set t th q jq g) := by
  rw [StackOk, JobState.set_threads,
    forall_update_iff s.threads (p := fun _ th => ∀ f ∈ th.frames.tail, f.isInJob = true)]
  exact ⟨hth, fun u _ => h u⟩

omit [Fintype Tid] in
theorem StackOk.step (h : StackOk s) {t : Tid} (he : JobEffect s t s') : StackOk s' := by
  have ht := h t
  cases he with
  | call hfree => exact h.set (isInJob_of_free hfree ht)
  | enter hf hfs =>
    rw [hf] at ht
    refine h.set ?_
    rcases hfs with rfl | rfl
    · exact ht
    · exact fun f hf => ht f (List.mem_of_mem_tail hf)
  | take hf =>
    rw [hf] at ht
    exact h.set ht
  | start hf =>
    rw [hf] at ht
    exact h.set ht
  | quiet _ _ htail => exact h.set (fun f hf => ht f (htail f hf))

omit [Fintype Tid] [DecidableEq Tid] in
theorem inPush_of_isInJob {fs : List (JobFrame Q Job)} (h : ∀ f ∈ fs, f.isInJob = true) (q : Q) :
    fs.flatMap (JobFrame.inPush q) = [] := by
  rw [List.flatMap_eq_nil_iff]
  intro f hf
  have := h f hf
  cases f <;> first | rfl | cases this

omit [Fintype Tid] in
theorem CallsEntered.set (h : CallsEntered s) {t : Tid} {th : JobThread Q Job} {q : Q} {jq : JobQueue Tid Job}
    {g : List Q} (hother : ∀ p, p ≠ q → th.inPush p = (s.threads t).inPush p ∧ th.calls p = (s.threads t).calls p)
    (hself : jq.enteredBy t ++ th.inPush q = th.calls q)
    (hothers : ∀ u, u ≠ t → jq.enteredBy u = (s.queues q).enteredBy u) : CallsEntered (s.set t th q jq g) := by
  intro u p
  have hup := h u p
  rw [JobState.set_threads, JobState.set_queues]
  by_cases hp : p = q
  · subst hp
    rw [update_self]
    by_cases hu : u = t
    · subst hu
      rwa [update_self]
    · rwa [update_of_ne hu, hothers u hu]
  · rw [update_of_ne hp]
    by_cases hu : u = t
    · subst hu
      rwa [update_self, (hother p hp).1, (hother p hp).2]
    · rwa [update_of_ne hu]

omit [Fintype Tid] in
theorem CallsEntered.step (h : CallsEntered s) (hst : StackOk s) {t : Tid} (he : JobEffect s t s') :
    CallsEntered s' := by
  -- a push on its way is the innermost frame
  have hfs : ∀ {f : JobFrame Q Job} {fs : List (JobFrame Q Job)} (p : Q), (s.threads t).frames = f :: fs →
      fs.flatMap (JobFrame.inPush p) = [] := fun p hf => by
    have := hst t
    rw [hf] at this
    exact inPush_of_isInJob this p
  have hhead : ∀ {f : JobFrame Q Job} {fs : List (JobFrame Q Job)} (p : Q), (s.threads t).frames = f :: fs →
      (s.threads t).inPush p = f.inPush p := fun p hf => by
    simp only [JobThread.inPush, hf, List.flatMap_cons, hfs p hf, List.append_nil]
  cases he with
  | @call q job pushOnly prevCount count hfree =>
    have hnone : ∀ p, (s.threads t).inPush p = [] := inPush_of_isInJob (isInJob_of_free hfree (hst t))
    refine h.set (fun p hp => ⟨?_, ?_⟩) ?_ (fun _ _ => rfl)
    · simp [JobThread.inPush, JobFrame.inPush, Ne.symm hp]
    · simp [JobThread.calls, Ne.symm hp]
    · have := h t q
      rw [hnone q, List.append_nil] at this
      have hn := hnone q
      simp only [JobThread.inPush] at hn
      simp only [JobQueue.enteredBy] at this
      simp [JobQueue.enteredBy, JobThread.inPush, JobFrame.inPush, JobThread.calls, this, hn]
  | @enter q job pushOnly prevCount fs fs' hf hfr =>
    have hin : ∀ p, (⟨(s.threads t).current, fs', (s.threads t).called⟩ : JobThread Q Job).inPush p = [] := fun p => by
      rcases hfr with rfl | rfl
      · simp [JobThread.inPush, JobFrame.inPush, hfs p hf]
      · exact hfs p hf
    refine h.set (fun p hp => ⟨?_, rfl⟩) ?_ (fun u hu => ?_)
    · rw [hin p, hhead p hf]
      simp [JobFrame.inPush, Ne.symm hp]
    · have := h t q
      rw [hhead q hf] at this
      rw [hin q]
      simpa [JobQueue.enteredBy, JobFrame.inPush, JobThread.calls] using this
    · simp [JobQueue.enteredBy, Ne.symm hu]
  | @take q fs hf =>
    have hin : ∀ p, (⟨(s.threads t).current, .batch q (popAll (s.queues q).jobs).1 0 :: fs, (s.threads t).called⟩ :
        JobThread Q Job).inPush p = (s.threads t).inPush p := fun p => by
      simp [JobThread.inPush, JobFrame.inPush, hf]
    exact h.set (fun p _ => ⟨hin p, rfl⟩) (by rw [hin q]; exact h t q) (fun _ _ => rfl)
  | @start q jobs i job fs hf hjob =>
    have hin : ∀ p, (⟨(s.threads t).current, .inJob q jobs i :: fs, (s.threads t).called⟩ :
        JobThread Q Job).inPush p = (s.threads t).inPush p := fun p => by
      simp [JobThread.inPush, JobFrame.inPush, hf]
    exact h.set (fun p _ => ⟨hin p, rfl⟩) (by rw [hin q]; exact h t q) (fun _ _ => rfl)
  | @quiet q current fs count g hrest hpush htl =>
    exact h.set (fun p _ => ⟨hpush p, rfl⟩) (by
      have : (⟨current, fs, (s.threads t).called⟩ : JobThread Q Job).inPush q = (s.threads t).inPush q := hpush q
      rw [this]
      exact h t q) (fun _ _ => rfl)

/-! ## What has entered has been executed or is on its way -/

omit [Fintype Tid] [DecidableEq Tid] in
theorem rest_of_tokens {fs : List (JobFrame Q Job)} {q : Q} (h : (fs.map (JobFrame.tokens q)).sum = 0) :
    fs.flatMap (JobFrame.rest q) = [] := by
  rw [List.flatMap_eq_nil_iff]
  intro f hf
  have h0 : f.tokens q = 0 := by
    have := List.single_le_sum (fun _ _ => Nat.zero_le _) _ (List.mem_map_of_mem (f := JobFrame.tokens q) hf)
    omega
  cases f <;> simp_all [JobFrame.tokens, JobFrame.rest]

omit [DecidableEq Tid] in
theorem JobInv.tokens_le (hI : JobInv s) (q : Q) : tally (JobThread.tokens q) s.threads ≤ 1 := by
  have := hI.token q
  simp only [tokens] at this
  split at this <;> omega

/-- **The thread with the token is alone**: no other frame has jobs of the queue left. -/
theorem JobInv.alone (hI : JobInv s) {t : Tid} {f : JobFrame Q Job} {fs : List (JobFrame Q Job)} {q : Q}
    (hf : (s.threads t).frames = f :: fs) (h : f.tokens q = 1) :
    (∀ u, u ≠ t → (s.threads u).rest q = []) ∧ fs.flatMap (JobFrame.rest q) = [] := by
  have hle := hI.tokens_le q
  have ht : (s.threads t).tokens q = 1 + (fs.map (JobFrame.tokens q)).sum := by
    simp only [JobThread.tokens, hf, List.map_cons, List.sum_cons, h]
  refine ⟨fun u hu => rest_of_tokens ?_, rest_of_tokens ?_⟩
  · exact eq_zero_of_tally_le_one (JobThread.tokens q) s.threads hle (by omega) hu
  · have := le_tally (JobThread.tokens q) s.threads t
    omega

omit [Fintype Tid] in
/-- **Something enters, or nothing**: the batches stay as they are. -/
theorem Delivered.append (h : Delivered s) {t : Tid} {th : JobThread Q Job} {q : Q} {jq : JobQueue Tid Job}
    {g : List Q} (hth : ∀ p, th.rest p = (s.threads t).rest p) (x : List (Option Job))
    (hentered : jq.entered.map Prod.snd = (s.queues q).entered.map Prod.snd ++ x)
    (hjobs : jq.jobs = (s.queues q).jobs ++ x) (hexecuted : jq.executed = (s.queues q).executed) :
    Delivered (s.set t th q jq g) := by
  have hrest : ∀ u p, (update s.threads t th u).rest p = (s.threads u).rest p := fun u p => by
    by_cases hu : u = t
    · subst hu
      rw [update_self, hth p]
    · rw [update_of_ne hu]
  constructor
  · intro u p hne
    simp only [JobState.set_threads, JobState.set_queues, hrest] at hne ⊢
    by_cases hp : p = q
    · subst hp
      rw [update_self, hentered, hexecuted, hjobs, h.running u p hne, List.append_assoc]
    · rw [update_of_ne hp, h.running u p hne]
  · intro p hnil
    simp only [JobState.set_threads, JobState.set_queues, hrest] at hnil ⊢
    by_cases hp : p = q
    · subst hp
      rw [update_self, hentered, hexecuted, hjobs, h.resting p hnil, List.append_assoc]
    · rw [update_of_ne hp, h.resting p hnil]

omit [Fintype Tid] in
/-- **The thread with the token moves a job**: no other thread has jobs of the queue left. -/
theorem Delivered.alone (h : Delivered s) {t : Tid} {th : JobThread Q Job} {q : Q} {jq : JobQueue Tid Job}
    {g : List Q} (halone : ∀ u, u ≠ t → (s.threads u).rest q = [])
    (hth : ∀ p, p ≠ q → th.rest p = (s.threads t).rest p) (hentered : jq.entered = (s.queues q).entered)
    (hmove : jq.executed.map some ++ (th.rest q).map some ++ jq.jobs =
      (s.queues q).executed.map some ++ ((s.threads t).rest q).map some ++ (s.queues q).jobs) :
    Delivered (s.set t th q jq g) := by
  have hnow : jq.entered.map Prod.snd = jq.executed.map some ++ (th.rest q).map some ++ jq.jobs := by
    rw [hmove, hentered]
    by_cases hne : (s.threads t).rest q = []
    · rw [hne, List.map_nil, List.append_nil]
      refine h.resting q (fun u => ?_)
      by_cases hu : u = t
      · rw [hu, hne]
      · exact halone u hu
    · exact h.running t q hne
  have hrest : ∀ u p, p ≠ q → (update s.threads t th u).rest p = (s.threads u).rest p := fun u p hp => by
    by_cases hu : u = t
    · subst hu
      rw [update_self, hth p hp]
    · rw [update_of_ne hu]
  constructor
  · intro u p hne
    simp only [JobState.set_threads, JobState.set_queues] at hne ⊢
    by_cases hp : p = q
    · subst hp
      by_cases hu : u = t
      · subst hu
        rw [update_self, update_self, hnow]
      · rw [update_of_ne hu] at hne
        exact absurd (halone u hu) hne
    · rw [hrest u p hp] at hne ⊢
      rw [update_of_ne hp, h.running u p hne]
  · intro p hnil
    simp only [JobState.set_threads, JobState.set_queues] at hnil ⊢
    by_cases hp : p = q
    · subst hp
      have := hnil t
      rw [update_self] at this
      rw [update_self, hnow, this, List.map_nil, List.append_nil]
    · rw [update_of_ne hp]
      exact h.resting p (fun u => by rw [← hrest u p hp]; exact hnil u)

theorem Delivered.step (h : Delivered s) (hI : JobInv s) {t : Tid} (he : JobEffect s t s') : Delivered s' := by
  cases he with
  | call _ =>
    exact h.append (fun p => by simp [JobThread.rest, JobFrame.rest]) [] (by simp) (by simp) rfl
  | @enter q job pushOnly prevCount fs fs' hf hfs =>
    refine h.append (fun p => ?_) [job] (by simp) rfl rfl
    rcases hfs with rfl | rfl <;> simp [JobThread.rest, JobFrame.rest, hf]
  | @take q fs hf =>
    obtain ⟨hothers, hbelow⟩ := hI.alone hf (q := q) (by simp [JobFrame.tokens])
    obtain ⟨hall, hnone⟩ := popAll_eq _ (hI.jobs q)
    refine h.alone hothers (fun p hp => ?_) rfl ?_
    · simp [JobThread.rest, JobFrame.rest, hf, Ne.symm hp]
    · simp [JobThread.rest, JobFrame.rest, hf, hbelow, hnone, hall]
  | @start q jobs i job fs hf hjob =>
    obtain ⟨hothers, hbelow⟩ := hI.alone hf (q := q) (by simp [JobFrame.tokens])
    refine h.alone hothers (fun p hp => ?_) rfl ?_
    · simp [JobThread.rest, JobFrame.rest, hf, Ne.symm hp]
    · obtain ⟨hi, rfl⟩ := List.getElem?_eq_some_iff.1 hjob
      have hold : (s.threads t).rest q = jobs[i] :: jobs.drop (i + 1) := by
        simp only [JobThread.rest, JobFrame.rest, hf, List.flatMap_cons, if_true, hbelow, List.append_nil]
        exact List.drop_eq_getElem_cons hi
      rw [hold]
      simp only [JobThread.rest, JobFrame.rest, List.flatMap_cons, if_true, hbelow, List.append_nil,
        List.map_append, List.map_cons, List.map_nil, List.append_assoc, List.cons_append, List.nil_append]
  | quiet hrest _ _ => exact h.append hrest [] (by simp) (by simp) rfl

/-! ## Runs -/

omit [DecidableEq Tid] [Fintype Tid] in
theorem delivered₀ : Delivered (jobState₀ : JobState Tid Q Job) :=
  ⟨fun _ _ _ => rfl, fun _ _ => rfl⟩

theorem JobReach.delivery (h : JobReach s) : StackOk s ∧ CallsEntered s ∧ Delivered s := by
  refine Reach.inv (P := fun s => StackOk s ∧ CallsEntered s ∧ Delivered s) h
    ⟨fun t f hf => by simp [jobState₀] at hf, fun _ _ => rfl, delivered₀⟩ ?_
  rintro s a s' hr ⟨hst, hcalls, hd⟩ he -
  obtain ⟨hI, hb⟩ := JobReach.inv hr
  obtain ⟨t, heff⟩ := jobStep_effect hI hb he
  exact ⟨hst.step heff, hcalls.step hst heff, hd.step hI heff⟩

/-- The queue a frame is about. -/
def JobFrame.queue : JobFrame Q Job → Q
  | .pushing q _ _ _ | .first q _ | .popped q | .popAll q | .batch q _ _ | .inJob q _ _ | .tick q => q

/-- No thread is inside `Push` or `Execute` of the queue or has it popped, and `GlobalQueue` does not have it. -/
def Quiescent (s : JobState Tid Q Job) (q : Q) : Prop :=
  (∀ t, ∀ f ∈ (s.threads t).frames, f.queue ≠ q) ∧ q ∉ s.globalQueue

omit [DecidableEq Tid] [Fintype Tid] in
theorem Quiescent.thread {q : Q} (h : Quiescent s q) (t : Tid) :
    (s.threads t).tokens q = 0 ∧ (s.threads t).rest q = [] ∧ (s.threads t).inPush q = [] := by
  have hf := h.1 t
  refine ⟨List.sum_eq_zero ?_, List.flatMap_eq_nil_iff.2 ?_, List.flatMap_eq_nil_iff.2 ?_⟩
  · intro n hn
    obtain ⟨f, hm, rfl⟩ := List.mem_map.1 hn
    have := hf f hm
    cases f <;> simp_all [JobFrame.queue, JobFrame.tokens]
  · intro f hm
    have := hf f hm
    cases f <;> simp_all [JobFrame.queue, JobFrame.rest]
  · intro f hm
    have := hf f hm
    cases f <;> simp_all [JobFrame.queue, JobFrame.inPush]

omit [DecidableEq Tid] [Fintype Tid] in
theorem Delivered.executed_first (h : Delivered s) (q : Q) :
    (s.queues q).executed.map some <+: (s.queues q).entered.map Prod.snd := by
  by_cases hr : ∀ t, (s.threads t).rest q = []
  · rw [h.resting q hr]
    exact List.prefix_append _ _
  · obtain ⟨t, ht⟩ := not_forall.1 hr
    rw [h.running t q ht, List.append_assoc]
    exact List.prefix_append _ _

/-- The executed jobs that one thread pushed. -/
def JobQueue.executedBy (t : Tid) (jq : JobQueue Tid Job) : List (Option Job) :=
  ((jq.entered.take jq.executed.length).filter (fun e => decide (e.1 = t))).map Prod.snd

/-- What delivery on queue `q` means: the executed jobs are the first of those that entered `_jobs`, in that order;
those one thread pushed are the first of its calls; and when nobody has to do with the queue any more, all that was
pushed has been executed. -/
structure Delivers (s : JobState Tid Q Job) (q : Q) : Prop where
  executed : (s.queues q).executed.map some <+: (s.queues q).entered.map Prod.snd
  executedBy : ∀ t, (s.queues q).executedBy t <+: (s.threads t).calls q
  all : Quiescent s q → (s.queues q).executed.map some = (s.queues q).entered.map Prod.snd ∧
    ∀ t, (s.queues q).executedBy t = (s.threads t).calls q

/-- When nobody has to do with the queue any more, all that was pushed has been executed. -/
theorem JobReach.executed_all (h : JobReach s) {q : Q} (hq : Quiescent s q) :
    (s.queues q).executed.map some = (s.queues q).entered.map Prod.snd ∧
      ∀ t, (s.queues q).executedBy t = (s.threads t).calls q := by
  obtain ⟨-, hcalls, hd⟩ := h.delivery
  obtain ⟨hI, -⟩ := h.inv
  have hjobs : (s.queues q).jobs = [] := by
    have htok := hI.token q
    have h0 : tokens s q = 0 := by
      simp only [tokens, (tally_eq_zero _ _).2 (fun t => (hq.thread t).1), List.count_eq_zero_of_not_mem hq.2]
    rw [h0] at htok
    have hp : pending s q = 0 := by
      by_contra hne
      rw [if_neg hne] at htok
      cases htok
    rw [pending] at hp
    exact List.length_eq_zero_iff.1 (by omega)
  have hall : (s.queues q).executed.map some = (s.queues q).entered.map Prod.snd := by
    rw [hd.resting q (fun t => (hq.thread t).2.1), hjobs, List.append_nil]
  refine ⟨hall, fun t => ?_⟩
  have hlen : (s.queues q).executed.length = (s.queues q).entered.length := by
    simpa using congrArg List.length hall
  have := hcalls t q
  rw [(hq.thread t).2.2, List.append_nil] at this
  rw [← this, JobQueue.executedBy, hlen, List.take_length, JobQueue.enteredBy]

/-- **Job queues deliver**: in every interleaving in which fewer than 2³¹ jobs are pending. -/
theorem job_queue_delivery (h : JobReach s) (q : Q) : Delivers s q := by
  obtain ⟨-, hcalls, hd⟩ := h.delivery
  refine ⟨hd.executed_first q, fun t => ?_, h.executed_all⟩
  rw [← hcalls t q]
  exact (((List.take_prefix _ _).filter _).map _).trans (List.prefix_append _ _)

/-- Thread one pushes job 7 and, while it runs, job 8; thread two pushes job 9; all of them run. -/
def threeJobs : List (JobAct Two Unit Nat) :=
  [.push .one () (some 7) false, .next .one false, .next .one false, .next .one false, .next .one false,
   .push .one () (some 8) false, .push .two () (some 9) false, .next .two false, .next .one false, .finish .one,
   .next .one false, .next .one true, .pop .two,
   .next .two false, .next .two false, .next .two false, .finish .two, .next .two false, .finish .two, .next .two false]

theorem job_queue_delivery_three : ∃ s,
    run jobStep JobsOk (jobState₀ : JobState Two Unit Nat) threeJobs = some s ∧
    (s.queues ()).executed.map some = [some 7, some 9, some 8] ∧ (s.queues ()).executedBy .one = [some 7, some 8] := by
  obtain ⟨s, hrun, hr⟩ := reach_of_run jobStep JobsOk (jobState₀ : JobState Two Unit Nat) threeJobs (by decide)
  have hs : (run jobStep JobsOk (jobState₀ : JobState Two Unit Nat) threeJobs).map (fun s =>
      ((s.threads .one).frames, (s.threads .two).frames, s.globalQueue, (s.queues ()).entered.map Prod.snd,
        (s.threads .one).calls ())) = some ([], [], [], [some 7, some 9, some 8], [some 7, some 8]) := rfl
  simp only [hrun, Option.map_some, Option.some.injEq, Prod.mk.injEq] at hs
  obtain ⟨h0, h1, hg, hentered, hcalls⟩ := hs
  have hq : Quiescent s () := by
    refine ⟨fun t f hf => ?_, by rw [hg]; exact List.not_mem_nil⟩
    cases t with
    | one => rw [h0] at hf; cases hf
    | two => rw [h1] at hf; cases hf
  obtain ⟨hall, hby⟩ := (job_queue_delivery hr ()).all hq
  exact ⟨s, hrun, by rw [hall, hentered], by rw [hby .one, hcalls]⟩

/-! ## Too many jobs for an `int32` -/

/-- One thread has pushed `n` jobs with `pushOnly`, and nobody has executed any. -/
def flooded (n : Nat) : JobState Unit Unit Unit :=
  { queues := fun _ => ⟨List.replicate n (some ()), BitVec.ofNat 32 n, List.replicate n ((), some ()), []⟩,
    globalQueue := [()],
    threads := fun _ => ⟨none, [], List.replicate n ((), some ())⟩ }

theorem flooded_reach : ∀ n, n + 1 < 2 ^ 32 → Reach jobStep PushesJobs jobState₀ (flooded (n + 1))
  | 0, _ => by
    refine .of_run [.push () () (some ()) true, .next () false, .next () false] jobState₀ _ ?_ .start
    rfl
  | n + 1, h => by
    have hc : BitVec.ofNat 32 (n + 1) ≠ 0 := by
      rw [Ne, ← BitVec.toNat_inj, BitVec.toNat_ofNat, show (0 : BitVec 32).toNat = 0 from rfl]
      omega
    have hadd : BitVec.ofNat 32 (n + 1) + 1 = BitVec.ofNat 32 (n + 1 + 1) := (BitVec.ofNat_add ..).symm
    have hpush : jobStep (flooded (n + 1)) (.push () () (some ()) true) = some ((flooded (n + 1)).set ()
        ⟨none, [.pushing () (some ()) true (BitVec.ofNat 32 (n + 1))],
          List.replicate (n + 1) ((), some ()) ++ [((), some ())]⟩ ()
        ⟨List.replicate (n + 1) (some ()), BitVec.ofNat 32 (n + 1) + 1, List.replicate (n + 1) ((), some ()), []⟩
        [()]) := rfl
    refine ((flooded_reach n (by omega)).next hpush (by simp [PushesJobs])).next (a := .next () false) ?_ trivial
    simp only [jobStep, jobNext, JobState.set, update_self, if_neg hc, hadd, update_idem, ← List.replicate_succ',
      flooded]
    exact congrArg some (congr (congrArg (fun f => JobState.mk f [()]) (funext fun _ => update_self ..))
      (funext fun _ => update_self ..))

/-- A batch whose size is cast to no positive `int32` is taken and not executed. -/
theorem flooded_lost {n : Nat} (hr : Reach jobStep PushesJobs jobState₀ (flooded n))
    (hn : (BitVec.ofNat 32 n).toInt ≤ 0) : ∃ s : JobState Unit Unit Unit, Reach jobStep PushesJobs jobState₀ s ∧
      Quiescent s () ∧ (s.queues ()).executed = [] ∧ (s.queues ()).entered.length = n := by
  have hlen : (popAll (List.replicate n (some ()))).1.length = n := by
    have := congrArg List.length (popAll_eq (List.replicate n (some ())) (by simp)).1
    simpa using this
  have hpop := ((hr.next (a := .pop ()) rfl (by exact trivial)).next (a := .next () false) rfl (by exact trivial)).next
    (a := .next () false) rfl (by exact trivial)
  simp only [JobState.set, update_self, update_idem, flooded] at hpop
  have hdone : ∀ (jobs : List Unit) (items : List (Option Unit)), jobs.length = n →
      jobStep (⟨update (fun _ => ⟨List.replicate n (some ()), BitVec.ofNat 32 n, List.replicate n ((), some ()), []⟩) ()
        ⟨items, BitVec.ofNat 32 n, List.replicate n ((), some ()), []⟩, [],
        update (fun _ => ⟨none, [], List.replicate n ((), some ())⟩) ()
          ⟨some (), [.batch () jobs 0], List.replicate n ((), some ())⟩⟩ : JobState Unit Unit Unit) (.next () false) =
      some ⟨fun _ => ⟨items, BitVec.ofNat 32 n - BitVec.ofNat 32 n, List.replicate n ((), some ()), []⟩, [],
        fun _ => ⟨none, [], List.replicate n ((), some ())⟩⟩ := by
    intro jobs items hjobs
    have hnot : ¬ ((0 : Nat) : Int) < (BitVec.ofNat 32 n).toInt := by omega
    simp only [jobStep, jobNext, update_self, hjobs, JobState.set, update_idem, hnot, if_false, if_true]
    exact congrArg some (congr (congrArg (fun f => JobState.mk f []) (funext fun _ => update_self ..))
      (funext fun _ => update_self ..))
  refine ⟨_, hpop.next (hdone _ _ hlen) (by exact trivial), ⟨fun t f hf => ?_, ?_⟩, rfl, ?_⟩
  · cases hf
  · exact List.not_mem_nil
  · exact List.length_replicate

/-- **Delivery fails from 2³¹ pending jobs on**: the batch is cast to a negative `int32`, so none of its jobs is
executed, and `fetch_sub` of that number ends `Execute` as if all of them had been. -/
theorem job_queue_loses_jobs : ¬ ∀ s : JobState Unit Unit Unit, Reach jobStep PushesJobs jobState₀ s →
    Delivers s () := by
  intro hall
  obtain ⟨s, hr, hq, hexecuted, hentered⟩ := flooded_lost (flooded_reach (2 ^ 31 - 1) (by decide)) (by decide)
  have := congrArg List.length ((hall s hr).all hq).1
  simp [hexecuted, hentered] at this

end Geon
