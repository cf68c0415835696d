import Mathlib.Data.Fintype.Basic
/-!
# Lts — runs of a partial step function

A system is a partial function `step : σ → α → Option σ`.  The action names the party that moves and what its
environment answers; `none` means the action is not enabled.  `Reach step ok s₀` holds of the states of the runs
from `s₀` whose every step meets the side condition `ok`, so "every interleaving" is every run of actions, and an
assumption on the runs is a condition on their steps.
-/
namespace Lts

variable {σ τ α β : Type*}

/-- The states of the runs from `s₀` whose steps all meet `ok`. -/
inductive Reach (step : σ → α → Option σ) (ok : σ → α → σ → Prop) (s₀ : σ) : σ → Prop
  | start : Reach step ok s₀ s₀
  | next {s s' : σ} {a : α} : Reach step ok s₀ s → step s a = some s' → ok s a s' → Reach step ok s₀ s'

def Any (_ : σ) (_ : α) (_ : σ) : Prop := True

instance (s : σ) (a : α) (s' : σ) : Decidable (Any s a s') := .isTrue trivial

variable {step : σ → α → Option σ} {ok : σ → α → σ → Prop} {s₀ s : σ}

/-- **The invariant rule**: what holds at the start and survives every allowed step of a reached state holds of every
reached state. -/
theorem Reach.inv {P : σ → Prop} (h : Reach step ok s₀ s) (h0 : P s₀)
    (hs : ∀ s a s', Reach step ok s₀ s → P s → step s a = some s' → ok s a s' → P s') : P s := by
  induction h with
  | start => exact h0
  | next hr he hok ih => exact hs _ _ _ hr ih he hok

theorem Reach.trans {s' : σ} (h : Reach step ok s₀ s) (h' : Reach step ok s s') : Reach step ok s₀ s' := by
  induction h' with
  | start => exact h
  | next _ he hok ih => exact ih.next he hok

theorem Reach.mono {ok' : σ → α → σ → Prop} (h : Reach step ok s₀ s) (hw : ∀ s a s', ok s a s' → ok' s a s') :
    Reach step ok' s₀ s := by
  induction h with
  | start => exact .start
  | next _ he hok ih => exact ih.next he (hw _ _ _ hok)

/-- **Projection**: when every allowed step is a step of another system under `f`, or invisible to it, so is every
run. -/
theorem Reach.map (step' : τ → β → Option τ) {ok' : τ → β → τ → Prop} (f : σ → τ)
    (hf : ∀ s a s', step s a = some s' → ok s a s' →
      f s' = f s ∨ ∃ b, step' (f s) b = some (f s') ∧ ok' (f s) b (f s'))
    (h : Reach step ok s₀ s) : Reach step' ok' (f s₀) (f s) := by
  induction h with
  | start => exact .start
  | next _ he hok ih =>
    rcases hf _ _ _ he hok with hsame | ⟨b, hb, hok'⟩
    · rw [hsame]; exact ih
    · exact ih.next hb hok'

variable [∀ s a s', Decidable (ok s a s')]

/-- The state after a list of actions, if every one of them is enabled and allowed. -/
def run (step : σ → α → Option σ) (ok : σ → α → σ → Prop) [∀ s a s', Decidable (ok s a s')] :
    σ → List α → Option σ
  | s, [] => some s
  | s, a :: as => (step s a).bind (fun s' => if ok s a s' then run step ok s' as else none)

theorem Reach.of_run : ∀ (as : List α) (s s' : σ), run step ok s as = some s' → Reach step ok s₀ s →
    Reach step ok s₀ s'
  | [], s, s', h, hr => by
    simp only [run, Option.some.injEq] at h
    exact h ▸ hr
  | a :: as, s, s', h, hr => by
    simp only [run, Option.bind_eq_some_iff] at h
    obtain ⟨t, ht, h⟩ := h
    split at h
    · exact Reach.of_run as t s' h (hr.next ht ‹_›)
    · cases h

theorem reach_of_run (step : σ → α → Option σ) (ok : σ → α → σ → Prop) [∀ s a s', Decidable (ok s a s')] (s₀ : σ)
    (as : List α) (h : (run step ok s₀ as).isSome) : ∃ s, run step ok s₀ as = some s ∧ Reach step ok s₀ s := by
  obtain ⟨s, hs⟩ := Option.isSome_iff_exists.1 h
  exact ⟨s, hs, .of_run as s₀ s hs .start⟩

theorem run_fault {Fault : σ → Prop} (hstay : ∀ s a s', Fault s → step s a = some s' → Fault s') : ∀ (as : List α)
    {s s' : σ}, Fault s → run step Any s as = some s' → Fault s'
  | [], _, _, hf, h => by
    cases h
    exact hf
  | a :: as, s, s', hf, h => by
    obtain ⟨t, ht, h⟩ := Option.bind_eq_some_iff.1 h
    rw [if_pos (show Any s a t from trivial)] at h
    exact run_fault hstay as (hstay s a t hf ht) h

/-- **The fault rule**: when the allowed steps keep an invariant, and every other step leaves a fault that stays, a run is
without fault if and only if each of its steps is allowed. -/
theorem run_allowed_iff {P Fault : σ → Prop} (hkeep : ∀ s a s', P s → step s a = some s' → ok s a s' → P s')
    (hfault : ∀ s a s', P s → step s a = some s' → ¬ ok s a s' → Fault s')
    (hstay : ∀ s a s', Fault s → step s a = some s' → Fault s') (hno : ∀ s, P s → ¬ Fault s) : ∀ (as : List α)
    {s s' : σ}, P s → run step Any s as = some s' → (¬ Fault s' ↔ run step ok s as = some s')
  | [], _, _, hP, h => by
    cases h
    exact iff_of_true (hno _ hP) rfl
  | a :: as, s, s', hP, h => by
    obtain ⟨t, ht, h⟩ := Option.bind_eq_some_iff.1 h
    rw [if_pos (show Any s a t from trivial)] at h
    rw [run, ht, Option.bind_some]
    by_cases hok : ok s a t
    · rw [if_pos hok]
      exact run_allowed_iff hkeep hfault hstay hno as (hkeep s a t hP ht hok) h
    · rw [if_neg hok]
      exact iff_of_false (not_not.2 (run_fault hstay as (hfault s a t hP ht hok) h)) (fun heq => by cases heq)

/-- **Two side conditions** that agree on the steps from the states of an invariant allow the same runs. -/
theorem run_congr {ok' : σ → α → σ → Prop} [∀ s a s', Decidable (ok' s a s')] {P : σ → Prop}
    (hkeep : ∀ s a s', P s → step s a = some s' → ok' s a s' → P s')
    (hiff : ∀ s a s', P s → step s a = some s' → (ok s a s' ↔ ok' s a s')) : ∀ (as : List α) {s : σ}, P s →
    run step ok s as = run step ok' s as
  | [], _, _ => rfl
  | a :: as, s, hP => by
    rw [run, run]
    refine Option.bind_congr (fun t ht => ?_)
    have ht : step s a = some t := ht
    by_cases hok : ok' s a t
    · rw [if_pos ((hiff s a t hP ht).2 hok), if_pos hok]
      exact run_congr hkeep hiff as (hkeep s a t hP ht hok)
    · rw [if_neg (fun h => hok ((hiff s a t hP ht).1 h)), if_neg hok]

/-- Two parties. -/
inductive Two
  | one
  | two
  deriving DecidableEq, Repr

instance : Fintype Two := ⟨{.one, .two}, fun t => by cases t <;> decide⟩

end Lts
