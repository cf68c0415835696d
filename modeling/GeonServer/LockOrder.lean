import GeonServer.RwLock
import GeonServer.Tally
import GeonServer.Ends
import Mathlib.Data.Fintype.Order
import Mathlib.Data.Finset.Max
/-!
# LockOrder — parties that take their locks in order

A party has holds on several locks, innermost first, and a list of what it still does with them.  When each party takes
only locks of a higher rank than all it holds, or once more the one it has taken last, gives back what it takes and never
writes under its own read hold (`Ordered`), every order of their steps comes to an end with everything done
(`ordered_ends`): of the parties that wait, the one that waits for the highest lock waits for a party that does not.
Programs of nested scopes are ordered when each scope is (`Fits`).
-/
namespace RwLock

open Lts Function

variable {Tid κ ρ : Type*}

inductive Act (κ : Type*)
  | take (k : κ) (m : Mode)
  | drop
  deriving DecidableEq, Repr

/-- What a party holds, innermost first, and what it still does. -/
structure Party (κ : Type*) where
  held : List (κ × Mode)
  todo : List (Act κ)

variable [DecidableEq κ]

/-- The holds on one lock. -/
def holdsOn (s : Tid → Party κ) (k : κ) : Holds Tid := fun t => ((s t).held.filter (fun h => h.1 = k)).map Prod.snd

theorem mem_holdsOn {s : Tid → Party κ} {k : κ} {t : Tid} {m : Mode} : m ∈ holdsOn s k t ↔ (k, m) ∈ (s t).held := by
  simp [holdsOn]

variable [DecidableEq Tid] [Fintype Tid]

/-- The next step of a party, when the lock allows it. -/
def partyStep (s : Tid → Party κ) (t : Tid) : Option (Tid → Party κ) :=
  match (s t).todo with
  | [] => none
  | .take k m :: todo => if Free (holdsOn s k) t m then some (update s t ⟨(k, m) :: (s t).held, todo⟩) else none
  | .drop :: todo =>
    match (s t).held with
    | [] => none
    | (k, _) :: held => if Droppable (holdsOn s k t) then some (update s t ⟨held, todo⟩) else none

omit [Fintype Tid] in
theorem holdsOn_update (s : Tid → Party κ) (t : Tid) (p : Party κ) (k : κ) :
    holdsOn (update s t p) k = update (holdsOn s k) t ((p.held.filter (fun h => h.1 = k)).map Prod.snd) := by
  funext u
  by_cases hu : u = t
  · subst hu
    simp only [holdsOn, update_self]
  · simp only [holdsOn, update_of_ne hu]

omit [Fintype Tid] in
/-- A step that leaves a party's holds on a lock alone leaves the lock alone. -/
theorem holdsOn_update_of_eq {s : Tid → Party κ} {t : Tid} {p : Party κ} {k : κ}
    (h : (p.held.filter (fun h => h.1 = k)).map Prod.snd = holdsOn s k t) :
    holdsOn (update s t p) k = holdsOn s k := by
  rw [holdsOn_update, h, update_eq_self]

/-- **A step of a party is a step of one lock**, and the other locks do not notice. -/
theorem partyStep_lock {s s' : Tid → Party κ} {t : Tid} (he : partyStep s t = some s') (k : κ) :
    holdsOn s' k = holdsOn s k ∨ ∃ op, step (holdsOn s k) op = some (holdsOn s' k) := by
  unfold partyStep at he
  split at he
  · cases he
  · rename_i j m todo htodo
    obtain ⟨hfree, he⟩ := Option.ite_none_right_eq_some.1 he
    cases he
    by_cases hjk : j = k
    · subst hjk
      refine .inr ⟨.take t m, ?_⟩
      rw [step, if_pos hfree, holdsOn_update]
      simp [holdsOn]
    · exact .inl (holdsOn_update_of_eq (by simp [holdsOn, hjk]))
  · rename_i todo htodo
    split at he
    · cases he
    · rename_i j m held hheld
      obtain ⟨hdrop, he⟩ := Option.ite_none_right_eq_some.1 he
      cases he
      by_cases hjk : j = k
      · subst hjk
        refine .inr ⟨.drop t, ?_⟩
        rw [step, if_pos hdrop, holdsOn_update]
        simp [holdsOn, hheld]
      · exact .inl (holdsOn_update_of_eq (by simp [holdsOn, hheld, hjk]))

/-! ## The order -/

variable [LinearOrder ρ] (rank : κ → ρ)

/-- A party that holds `held` may take `k`: it has taken it last, to write, or everything it holds is below it. -/
def Above (held : List (κ × Mode)) (k : κ) : Prop := held.head? = some (k, .write) ∨ ∀ h ∈ held, rank h.1 < rank k

/-- The rest of a party's program, from these holds on, takes locks in order and gives back what it takes. -/
def Ordered : List (κ × Mode) → List (Act κ) → Prop
  | held, [] => held = []
  | held, .take k m :: todo => Above rank held k ∧ Ordered ((k, m) :: held) todo
  | (k, m) :: held, .drop :: todo => (m = .write → (k, .read) ∉ held) ∧ Ordered held todo
  | [], .drop :: _ => False

variable {rank}

theorem droppable_of_head {held : List (κ × Mode)} {k : κ} {m : Mode}
    (hm : m = .write → (k, .read) ∉ held) :
    Droppable ((((k, m) :: held).filter (fun h => h.1 = k)).map Prod.snd) := by
  rw [List.filter_cons_of_pos (by simp), List.map_cons]
  cases m with
  | read => trivial
  | write =>
    intro hin
    obtain ⟨⟨j, m'⟩, hj, rfl⟩ := List.mem_map.1 hin
    obtain ⟨hmem, hjk⟩ := List.mem_filter.1 hj
    simp only [decide_eq_true_eq] at hjk
    subst hjk
    exact hm rfl hmem

/-- What holds of parties on their way. -/
structure InOrder (rank : κ → ρ) (s : Tid → Party κ) : Prop where
  ordered : ∀ t, Ordered rank (s t).held (s t).todo
  exclusive : ∀ k, Exclusive (holdsOn s k)

omit [DecidableEq κ] [Fintype Tid] in
theorem ordered_update {s : Tid → Party κ} (h : ∀ t, Ordered rank (s t).held (s t).todo) {t : Tid} {p : Party κ}
    (hp : Ordered rank p.held p.todo) (u : Tid) :
    Ordered rank (update s t p u).held (update s t p u).todo := by
  by_cases hu : u = t
  · subst hu
    rwa [update_self]
  · rw [update_of_ne hu]
    exact h u

theorem InOrder.step {s s' : Tid → Party κ} (h : InOrder rank s) {t : Tid} (he : partyStep s t = some s') :
    InOrder rank s' := by
  refine ⟨?_, fun k => ?_⟩
  · have ht := h.ordered t
    unfold partyStep at he
    split at he
    · cases he
    · rename_i j m todo htodo
      obtain ⟨-, he⟩ := Option.ite_none_right_eq_some.1 he
      cases he
      rw [htodo] at ht
      exact ordered_update h.ordered ht.2
    · rename_i todo htodo
      split at he
      · cases he
      · rename_i j m held hheld
        obtain ⟨-, he⟩ := Option.ite_none_right_eq_some.1 he
        cases he
        rw [htodo, hheld] at ht
        exact ordered_update h.ordered ht.2
  · rcases partyStep_lock he k with hsame | ⟨op, hop⟩
    · rw [hsame]
      exact h.exclusive k
    · exact step_exclusive (h.exclusive k) hop

/-- **Each step is one less to do.** -/
theorem partyStep_todo {s s' : Tid → Party κ} {t : Tid} (he : partyStep s t = some s') :
    tally (fun p => p.todo.length) s' < tally (fun p : Party κ => p.todo.length) s := by
  have hone : ∀ p : Party κ, p.todo.length < (s t).todo.length →
      tally (fun p => p.todo.length) (update s t p) < tally (fun p : Party κ => p.todo.length) s := by
    intro p hp
    have := tally_update (fun p : Party κ => p.todo.length) s t p
    omega
  unfold partyStep at he
  split at he
  · cases he
  · rename_i j m todo htodo
    obtain ⟨-, he⟩ := Option.ite_none_right_eq_some.1 he
    cases he
    exact hone _ (by simp [htodo])
  · rename_i todo htodo
    split at he
    · cases he
    · obtain ⟨-, he⟩ := Option.ite_none_right_eq_some.1 he
      cases he
      exact hone _ (by simp [htodo])

/-! ## Nobody waits forever -/

/-- A party that cannot go on wants a lock above all it holds, which another party holds. -/
theorem InOrder.waits {s : Tid → Party κ} (h : InOrder rank s) {t : Tid} (htodo : (s t).todo ≠ [])
    (hstuck : partyStep s t = none) :
    ∃ k, (∀ j ∈ (s t).held, rank j.1 < rank k) ∧ ∃ u n, (k, n) ∈ (s u).held := by
  have ht := h.ordered t
  unfold partyStep at hstuck
  cases hs : (s t).todo with
  | nil => exact absurd hs htodo
  | cons a todo =>
    rw [hs] at ht
    simp only [hs] at hstuck
    cases a with
    | drop =>
      cases hheld : (s t).held with
      | nil =>
        rw [hheld] at ht
        exact ht.elim
      | cons j held =>
        obtain ⟨k, m⟩ := j
        rw [hheld] at ht
        have hdrop : Droppable (holdsOn s k t) := by
          rw [holdsOn, hheld]
          exact droppable_of_head ht.1
        simp only [hheld, if_pos hdrop] at hstuck
        cases hstuck
    | take k m =>
      simp only [ite_eq_right_iff, reduceCtorEq, imp_false] at hstuck
      refine ⟨k, ?_, ?_⟩
      · rcases ht.1 with hwrite | hbelow
        · have hmem := mem_holdsOn.2 (List.mem_of_mem_head? hwrite)
          exact absurd (by cases m <;> exact .inl hmem) hstuck
        · exact hbelow
      · by_contra hnone
        simp only [not_exists] at hnone
        refine hstuck ?_
        cases m with
        | write => exact .inr (fun u => List.eq_nil_iff_forall_not_mem.2 (fun n hn => hnone u n (mem_holdsOn.1 hn)))
        | read => exact .inr (fun u hn => hnone u _ (mem_holdsOn.1 hn))

/-- **No deadlock**: when no party can go on, every party is done. -/
theorem InOrder.done {s : Tid → Party κ} (h : InOrder rank s) (hstuck : ∀ t, partyStep s t = none) (t : Tid) :
    (s t).todo = [] := by
  by_contra htodo
  -- of those that wait, one waits for the highest lock
  obtain ⟨k₀, -⟩ := h.waits htodo (hstuck t)
  have : Nonempty κ := ⟨k₀⟩
  choose! k habove hheld using fun t (htodo : (s t).todo ≠ []) => h.waits htodo (hstuck t)
  obtain ⟨top, htop, hmax⟩ := (Finset.univ.filter (fun t => (s t).todo ≠ [])).exists_max_image (fun t => rank (k t))
    ⟨t, by simp [htodo]⟩
  simp only [Finset.mem_filter, Finset.mem_univ, true_and] at htop hmax
  obtain ⟨u, n, hu⟩ := hheld top htop
  have hutodo : (s u).todo ≠ [] := by
    intro hnil
    have hord := h.ordered u
    rw [hnil] at hord
    rw [show (s u).held = [] from hord] at hu
    cases hu
  exact absurd (hmax u hutodo) (not_le.2 (habove u hutodo _ hu))

/-- **Parties in order finish**, whatever the order of their steps. -/
theorem ordered_ends {s : Tid → Party κ} (h : InOrder rank s) :
    Ends partyStep Any (fun s => ∀ t, s t = ⟨[], []⟩) s := by
  refine Ends.of_measure (I := InOrder rank) wellFounded_lt (tally (fun p => p.todo.length)) ?_ ?_ ?_ h
  · exact fun s t s' h he _ => h.step he
  · exact fun s t s' h he _ => partyStep_todo he
  · intro s h hstuck t
    have htodo := h.done (fun u => by
      cases hu : partyStep s u with
      | none => rfl
      | some s' => exact absurd trivial (hstuck u s' hu)) t
    have hord := h.ordered t
    rw [htodo] at hord
    have hheld : (s t).held = [] := hord
    cases hs : s t with
    | mk held todo =>
      rw [hs] at htodo hheld
      cases htodo
      cases hheld
      rfl

/-! ## Programs of scopes -/

/-- A program that writes `k` around another one. -/
def scope (k : κ) (body : List (Act κ)) : List (Act κ) := .take k .write :: (body ++ [.drop])

/-- Whatever is in order after a program with these holds is in order with the program in front of it. -/
def Fits (rank : κ → ρ) (held : List (κ × Mode)) (prog : List (Act κ)) : Prop :=
  ∀ todo, Ordered rank held todo → Ordered rank held (prog ++ todo)

variable {held : List (κ × Mode)} {k : κ} {r : ρ}

omit [DecidableEq κ] in
theorem Fits.nil : Fits rank held [] := fun _ h => h

omit [DecidableEq κ] in
theorem Fits.append {p q : List (Act κ)} (hp : Fits rank held p) (hq : Fits rank held q) : Fits rank held (p ++ q) := by
  intro todo h
  rw [List.append_assoc]
  exact hp _ (hq _ h)

omit [DecidableEq κ] in
theorem Fits.flatten : ∀ {progs : List (List (Act κ))}, (∀ p ∈ progs, Fits rank held p) → Fits rank held progs.flatten
  | [], _ => .nil
  | p :: progs, h => by
    rw [List.flatten_cons]
    exact (h p List.mem_cons_self).append (Fits.flatten (fun q hq => h q (List.mem_cons_of_mem _ hq)))

omit [DecidableEq κ] in
theorem Fits.ite {c : Prop} [Decidable c] {p q : List (Act κ)} (hp : Fits rank held p) (hq : Fits rank held q) :
    Fits rank held (if c then p else q) := by
  split
  · exact hp
  · exact hq

omit [DecidableEq κ] in
/-- **A scope fits** where its lock may be taken and what is inside fits under it. -/
theorem Fits.scope {body : List (Act κ)} (hk : Above rank held k) (hread : (k, .read) ∉ held)
    (hbody : Fits rank ((k, .write) :: held) body) : Fits rank held (scope k body) := by
  intro todo h
  refine ⟨hk, ?_⟩
  show Ordered rank _ ((body ++ [.drop]) ++ todo)
  rw [List.append_assoc]
  exact hbody _ ⟨fun _ => hread, h⟩

omit [DecidableEq κ] in
theorem Fits.ordered {prog : List (Act κ)} (h : Fits rank [] prog) : Ordered rank [] prog := by
  have := h [] rfl
  rwa [List.append_nil] at this

/-- Everything held is written and of a rank below `r`. -/
def Below (rank : κ → ρ) (r : ρ) (held : List (κ × Mode)) : Prop := ∀ h ∈ held, h.2 = .write ∧ rank h.1 < r

omit [DecidableEq κ] in
theorem Below.nil : Below rank r ([] : List (κ × Mode)) := fun _ h => by cases h

omit [DecidableEq κ] in
theorem Below.cons (h : Below rank r held) (hk : rank k < r) : Below rank r ((k, .write) :: held) := by
  intro j hj
  rcases List.mem_cons.1 hj with rfl | hj
  · exact ⟨rfl, hk⟩
  · exact h j hj

omit [DecidableEq κ] in
theorem Below.mono {r' : ρ} (h : Below rank r held) (hr : r ≤ r') : Below rank r' held :=
  fun j hj => ⟨(h j hj).1, lt_of_lt_of_le (h j hj).2 hr⟩

omit [DecidableEq κ] in
/-- A scope on a lock above everything held. -/
theorem Below.scope {body : List (Act κ)} (h : Below rank (rank k) held)
    (hbody : Fits rank ((k, .write) :: held) body) : Fits rank held (scope k body) :=
  .scope (.inr (fun j hj => (h j hj).2)) (fun hread => by cases (h _ hread).1) hbody

omit [DecidableEq κ] in
/-- A scope on the lock taken last. -/
theorem Below.again {body : List (Act κ)} (h : Below rank (rank k) held)
    (hbody : Fits rank ((k, .write) :: (k, .write) :: held) body) :
    Fits rank ((k, .write) :: held) (RwLock.scope k body) := by
  refine .scope (.inl rfl) (fun hread => ?_) hbody
  rcases List.mem_cons.1 hread with heq | hread
  · cases heq
  · cases (h _ hread).1

end RwLock
