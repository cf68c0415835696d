import Mathlib.Algebra.BigOperators.Group.List.Basic
import Mathlib.Algebra.GroupWithZero.Nat
/-!
# Net — tokens that rules move from place to place

A marking says how many tokens each place has, and a rule takes tokens and puts tokens.  A law compares the tokens of
two lists of places, and whether a rule keeps it is a finite check on the two lists (`Law.Keeps`), whatever the
marking: the place invariants of a Petri net.
-/
namespace Net

variable {P : Type*}

/-- The tokens of some places, a place counting as often as it is listed. -/
def total (m : P → Nat) (ps : List P) : Nat := (ps.map m).sum

@[simp] theorem total_nil (m : P → Nat) : total m [] = 0 := rfl

@[simp] theorem total_cons (m : P → Nat) (p : P) (ps : List P) : total m (p :: ps) = m p + total m ps := by
  simp [total]

theorem total_zero (ps : List P) : total (fun _ => 0) ps = 0 := by simp [total]

/-- What a step takes and what it puts. -/
structure Rule (P : Type*) where
  take : List P
  put : List P

/-- `small` has no more tokens than `large`. -/
structure Law (P : Type*) where
  small : List P
  large : List P

def Law.Holds (l : Law P) (m : P → Nat) : Prop := total m l.small ≤ total m l.large

variable [DecidableEq P]

/-- The rule leads from one marking to the other. -/
structure Rule.Fires (r : Rule P) (m m' : P → Nat) : Prop where
  enabled : ∀ p, r.take.count p ≤ m p
  moved : ∀ p, m' p + r.take.count p = m p + r.put.count p

/-- The rule adds to `large`, less what it takes there, at least what it adds to `small`. -/
def Law.Keeps (l : Law P) (r : Rule P) : Prop :=
  total r.put.count l.small + total r.take.count l.large ≤ total r.take.count l.small + total r.put.count l.large

instance (l : Law P) (r : Rule P) : Decidable (l.Keeps r) := inferInstanceAs (Decidable (_ ≤ _))

variable {r : Rule P} {m m' : P → Nat}

theorem Rule.Fires.total (h : r.Fires m m') (ps : List P) :
    total m' ps + total r.take.count ps = total m ps + total r.put.count ps := by
  induction ps with
  | nil => rfl
  | cons p ps ih =>
    have := h.moved p
    simp only [total_cons]
    omega

/-- **A law that a rule keeps outlives it.** -/
theorem Law.Holds.fire {l : Law P} (hl : l.Holds m) (h : r.Fires m m') (hk : l.Keeps r) : l.Holds m' := by
  have hsmall := h.total l.small
  have hlarge := h.total l.large
  unfold Law.Holds Law.Keeps at *
  omega

theorem Rule.Fires.pos (h : r.Fires m m') {p : P} (hp : p ∈ r.take) : 0 < m p :=
  Nat.lt_of_lt_of_le (List.count_pos_iff.2 hp) (h.enabled p)

theorem Rule.Fires.same (h : r.Fires m m') {p : P} (ht : p ∉ r.take) (hp : p ∉ r.put) : m' p = m p := by
  have := h.moved p
  rwa [List.count_eq_zero_of_not_mem ht, List.count_eq_zero_of_not_mem hp] at this

/-- Where there is nothing, only a rule that takes nothing fires. -/
theorem Rule.Fires.take_eq_nil (h : r.Fires m m') (h0 : ∀ p, m p = 0) : r.take = [] := by
  refine List.eq_nil_iff_forall_not_mem.2 (fun p hp => ?_)
  have := h.pos hp
  have := h0 p
  omega

end Net
