import GeonServer.Lts
/-!
# RwLock — a re-entrant reader/writer lock, as its users see it

The state is what every party holds, innermost first, and taking and dropping are one step each.  Writing excludes every
other party; the writer may take the lock again either way; a reader may not become the writer; and the writer drops a
write hold only when no read hold is left around it.
-/
namespace RwLock

open Lts

inductive Mode
  | write
  | read
  deriving DecidableEq, Repr

/-- What a party does with the lock. -/
inductive Op (Tid : Type*)
  | take (t : Tid) (m : Mode)
  | drop (t : Tid)

variable {Tid : Type*}

def Op.party : Op Tid → Tid
  | .take t _ => t
  | .drop t => t

/-- What every party holds, innermost first. -/
abbrev Holds (Tid : Type*) := Tid → List Mode

/-- `t` may take the lock this way: it is the writer already, or nobody is in its way. -/
def Free (h : Holds Tid) (t : Tid) : Mode → Prop
  | .write => .write ∈ h t ∨ ∀ u, h u = []
  | .read => .write ∈ h t ∨ ∀ u, .write ∉ h u

instance [Fintype Tid] (h : Holds Tid) (t : Tid) (m : Mode) : Decidable (Free h t m) :=
  match m with
  | .write => inferInstanceAs (Decidable (_ ∨ _))
  | .read => inferInstanceAs (Decidable (_ ∨ _))

/-- `t` may drop its innermost hold. -/
def Droppable : List Mode → Prop
  | [] => False
  | .read :: _ => True
  | .write :: ms => .read ∉ ms

instance (ms : List Mode) : Decidable (Droppable ms) :=
  match ms with
  | [] => .isFalse id
  | .read :: _ => .isTrue trivial
  | .write :: _ => inferInstanceAs (Decidable (¬ _))

variable [DecidableEq Tid] [Fintype Tid]

def step (h : Holds Tid) : Op Tid → Option (Holds Tid)
  | .take t m => if Free h t m then some (Function.update h t (m :: h t)) else none
  | .drop t => if Droppable (h t) then some (Function.update h t (h t).tail) else none

/-- The writer is alone. -/
def Exclusive (h : Holds Tid) : Prop := ∀ t u, .write ∈ h t → u ≠ t → h u = []

omit [Fintype Tid] in
theorem Exclusive.update {h : Holds Tid} (hex : Exclusive h) {t : Tid} {ms : List Mode}
    (hwrite : .write ∈ ms → .write ∈ h t ∨ ∀ u, h u = []) (hnil : h t = [] → ms ≠ [] → ∀ u, .write ∉ h u) :
    Exclusive (Function.update h t ms) := by
  intro a b ha hb
  by_cases hat : a = t
  · subst hat
    rw [Function.update_self] at ha
    rw [Function.update_of_ne hb]
    rcases hwrite ha with hw | hall
    · exact hex a b hw hb
    · exact hall b
  · rw [Function.update_of_ne hat] at ha
    by_cases hbt : b = t
    · subst hbt
      rw [Function.update_self]
      by_contra hms
      exact hnil (hex a b ha hb) hms a ha
    · rw [Function.update_of_ne hbt]
      exact hex a b ha hb

/-- **Taking and dropping keep the writer alone.** -/
theorem step_exclusive {h h' : Holds Tid} {op : Op Tid} (hex : Exclusive h) (he : step h op = some h') :
    Exclusive h' := by
  cases op with
  | take t m =>
    obtain ⟨hfree, he⟩ := Option.ite_none_right_eq_some.1 he
    cases he
    cases m with
    | write =>
      refine hex.update (fun _ => hfree) (fun hnil _ u hu => ?_)
      rcases hfree with hw | hall
      · rw [hnil] at hw
        cases hw
      · rw [hall u] at hu
        cases hu
    | read =>
      refine hex.update (fun hw => ?_) (fun hnil _ u hu => ?_)
      · rcases List.mem_cons.1 hw with hw | hw
        · cases hw
        · exact .inl hw
      · rcases hfree with hw | hall
        · rw [hnil] at hw
          cases hw
        · exact hall u hu
  | drop t =>
    obtain ⟨-, he⟩ := Option.ite_none_right_eq_some.1 he
    cases he
    refine hex.update (fun hw => .inl (List.mem_of_mem_tail hw)) (fun hnil hne => ?_)
    rw [hnil] at hne
    exact absurd rfl hne

end RwLock
