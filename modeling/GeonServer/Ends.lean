import GeonServer.Lts
import Mathlib.Data.Prod.Lex
/-!
# Ends — systems whose every run comes to an end

`Ends step ok P s` says of a partial step function that from `s` on every run of allowed steps is finite, and that `P`
holds where none is possible any more: whatever the order of the steps, the system comes to rest in `P`.  The rule is
a measure that every allowed step brings down (`Ends.of_measure`).
-/
namespace Lts

variable {σ α β : Type*}

/-- No allowed step is possible. -/
def Stuck (step : σ → α → Option σ) (ok : σ → α → σ → Prop) (s : σ) : Prop :=
  ∀ a s', step s a = some s' → ¬ ok s a s'

/-- Every run of allowed steps from `s` comes to an end, and it ends in `P`. -/
inductive Ends (step : σ → α → Option σ) (ok : σ → α → σ → Prop) (P : σ → Prop) : σ → Prop
  | intro {s : σ} : (Stuck step ok s → P s) →
      (∀ a s', step s a = some s' → ok s a s' → Ends step ok P s') → Ends step ok P s

variable {step : σ → α → Option σ} {ok : σ → α → σ → Prop} {P I : σ → Prop} {s : σ}

/-- **The measure rule**: allowed steps keep `I` and bring `μ` down, and a state of `I` with no allowed step is in
`P`. -/
theorem Ends.of_measure {r : β → β → Prop} (hwf : WellFounded r) (μ : σ → β)
    (hkeep : ∀ s a s', I s → step s a = some s' → ok s a s' → I s')
    (hdown : ∀ s a s', I s → step s a = some s' → ok s a s' → r (μ s') (μ s))
    (hstuck : ∀ s, I s → Stuck step ok s → P s) (h : I s) : Ends step ok P s := by
  induction hb : μ s using hwf.induction generalizing s with
  | _ b ih =>
    refine .intro (hstuck s h) (fun a s' he hok => ?_)
    exact ih (μ s') (hb ▸ hdown s a s' h he hok) (hkeep s a s' h he hok) rfl

/-- **Every run that cannot go on has come to `P`.** -/
theorem Ends.of_reach {s' : σ} (h : Ends step ok P s) (hr : Reach step ok s s') : Ends step ok P s' := by
  induction hr with
  | start => exact h
  | next _ he hok ih =>
    cases ih with
    | intro _ hnext => exact hnext _ _ he hok

theorem Ends.stuck {s' : σ} (h : Ends step ok P s) (hr : Reach step ok s s') (hs : Stuck step ok s') : P s' := by
  cases h.of_reach hr with
  | intro hP _ => exact hP hs

/-- A measure of several parts: the first is no greater, and what follows is less. -/
theorem lex_of_le {γ : Type*} [LT γ] {m n : Nat} {x y : γ} (h : m ≤ n) (hlt : x < y) : toLex (m, x) < toLex (n, y) := by
  rcases Nat.lt_or_eq_of_le h with hmn | rfl
  · exact Prod.Lex.left _ _ hmn
  · exact Prod.Lex.right _ hlt

end Lts
