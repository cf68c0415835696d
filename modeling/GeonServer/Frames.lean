import Mathlib.Tactic.Common
/-!
# Frames — cutting a stream into frames

A framer reads off the front of a stream how long the first frame is, once it is there whole.  `Cut f xs ps r` says
that the frames `ps` have been cut off `xs` and `r` is left; `Done` adds that nothing more can be cut off `r`.  The
cut of a stream is unique (`Done.unique`) and does not depend on how the stream arrives: cutting a prefix and then
its remainder with the next part appended is cutting the whole (`Cut.append`, `Cut.trans`, `Fed.cut`).
-/
namespace Frames

variable {α : Type*}

/-- How the length of the first frame is read off a stream; `none` while it is not there whole. -/
structure Framer (α : Type*) where
  head : List α → Option Nat
  head_le : ∀ xs n, head xs = some n → n ≤ xs.length
  head_append : ∀ xs ys n, head xs = some n → head (xs ++ ys) = some n

variable {f : Framer α}

/-- The frames `ps` have been cut off the stream and the last argument is left. -/
inductive Cut (f : Framer α) : List α → List (List α) → List α → Prop
  | rest (xs : List α) : Cut f xs [] xs
  | frame {xs r : List α} {ps : List (List α)} {n : Nat} : f.head xs = some n → Cut f (xs.drop n) ps r →
      Cut f xs (xs.take n :: ps) r

/-- All frames there are have been cut off. -/
def Done (f : Framer α) (xs : List α) (ps : List (List α)) (r : List α) : Prop := Cut f xs ps r ∧ f.head r = none

/-- **No empty frame is ever met**: every frame the cut of `xs` can come to is at least one element long. -/
def Positive (f : Framer α) (xs : List α) : Prop := ∀ ps r n, Cut f xs ps r → f.head r = some n → 0 < n

theorem Cut.trans {xs r r' : List α} {ps qs : List (List α)} (h : Cut f xs ps r) (h' : Cut f r qs r') :
    Cut f xs (ps ++ qs) r' := by
  induction h with
  | rest => exact h'
  | frame hn _ ih => exact .frame hn (ih h')

/-- **A cut stays a cut when more arrives**: what arrives is appended to what was left. -/
theorem Cut.append {xs r : List α} {ps : List (List α)} (ys : List α) (h : Cut f xs ps r) :
    Cut f (xs ++ ys) ps (r ++ ys) := by
  induction h with
  | rest => exact .rest _
  | @frame xs r ps n hn _ ih =>
    have hle := f.head_le _ _ hn
    have ht : xs.take n = (xs ++ ys).take n := by rw [List.take_append_of_le_length hle]
    have hd : xs.drop n ++ ys = (xs ++ ys).drop n := by rw [List.drop_append_of_le_length hle]
    rw [ht]
    exact .frame (f.head_append _ _ _ hn) (hd ▸ ih)

theorem Cut.flatten {xs r : List α} {ps : List (List α)} (h : Cut f xs ps r) : xs = ps.flatten ++ r := by
  induction h with
  | rest => rfl
  | @frame xs r ps n _ _ ih => rw [List.flatten_cons, List.append_assoc, ← ih, List.take_append_drop]

theorem Done.unique {xs r r' : List α} {ps qs : List (List α)} (h : Done f xs ps r) (h' : Done f xs qs r') :
    ps = qs ∧ r = r' := by
  obtain ⟨hc, hr⟩ := h
  obtain ⟨hc', hr'⟩ := h'
  induction hc generalizing qs with
  | rest xs =>
    cases hc' with
    | rest => exact ⟨rfl, rfl⟩
    | frame hn _ => rw [hr] at hn; cases hn
  | frame hn _ ih =>
    cases hc' with
    | rest => rw [hr'] at hn; cases hn
    | frame hn' h' =>
      obtain rfl := Option.some.inj (hn.symm.trans hn')
      obtain ⟨rfl, rfl⟩ := ih hr h'
      exact ⟨rfl, rfl⟩

/-- **A cut that comes to an end meets no empty frame**: cutting one off changes nothing, so it would go on forever. -/
theorem Done.frame_ne_nil {xs r : List α} {ps : List (List α)} (h : Done f xs ps r) : ∀ p ∈ ps, p ≠ [] := by
  obtain ⟨hc, hr⟩ := h
  induction hc with
  | rest => intro p hp; cases hp
  | @frame xs r ps n hn hc ih =>
    intro p hp
    rcases List.mem_cons.1 hp with rfl | hp
    · intro hnil
      have hle := f.head_le _ _ hn
      obtain rfl : n = 0 := by
        have := congrArg List.length hnil
        rw [List.length_take, List.length_nil] at this
        omega
      have h1 : Done f xs ps r := ⟨by simpa using hc, hr⟩
      have h2 : Done f xs (xs.take 0 :: ps) r := ⟨.frame hn hc, hr⟩
      have := congrArg List.length (h1.unique h2).1
      rw [List.length_cons] at this
      omega
    · exact ih hr p hp

theorem length_le_flatten : ∀ (ps : List (List α)), (∀ p ∈ ps, p ≠ []) → ps.length ≤ ps.flatten.length
  | [], _ => Nat.le_refl _
  | p :: ps, h => by
    have hp := List.length_pos_iff.2 (h p List.mem_cons_self)
    have := length_le_flatten ps (fun q hq => h q (List.mem_cons_of_mem _ hq))
    rw [List.length_cons, List.flatten_cons, List.length_append]
    omega

theorem Done.length_le {xs r : List α} {ps : List (List α)} (h : Done f xs ps r) : ps.length ≤ xs.length := by
  have h1 := length_le_flatten ps h.frame_ne_nil
  have h2 := congrArg List.length h.1.flatten
  rw [List.length_append] at h2
  omega

theorem Positive.rest {xs r : List α} {ps : List (List α)} (h : Positive f xs) (hc : Cut f xs ps r) :
    Positive f r := fun _ _ n hq hn => h _ _ n (hc.trans hq) hn

theorem Positive.of_append {xs ys : List α} (h : Positive f (xs ++ ys)) : Positive f xs :=
  fun _ _ n hc hn => h _ _ n (hc.append ys) (f.head_append _ _ _ hn)

/-- **Without empty frames the cutting comes to an end**, one element of the stream at least being used up by each
frame. -/
theorem Positive.done {xs : List α} (h : Positive f xs) : ∃ ps r, Done f xs ps r := by
  induction hl : xs.length using Nat.strongRecOn generalizing xs with
  | _ l ih =>
    cases hn : f.head xs with
    | none => exact ⟨[], xs, .rest xs, hn⟩
    | some n =>
      have hpos := h [] xs n (.rest xs) hn
      have hle := f.head_le _ _ hn
      obtain ⟨ps, r, hc, hr⟩ := ih (xs.drop n).length (by rw [List.length_drop]; omega)
        (h.rest (.frame hn (.rest _))) rfl
      exact ⟨_, r, .frame hn hc, hr⟩

theorem Done.positive {xs r : List α} {ps : List (List α)} (h : Done f xs ps r) : Positive f xs := by
  intro qs r' n hc hn
  induction hc generalizing ps with
  | rest xs =>
    obtain ⟨hd, hr⟩ := h
    cases hd with
    | rest => rw [hr] at hn; cases hn
    | frame hn' hd' =>
      obtain rfl := Option.some.inj (hn.symm.trans hn')
      have hne := Done.frame_ne_nil ⟨.frame hn hd', hr⟩ _ List.mem_cons_self
      exact Nat.pos_of_ne_zero (fun h0 => hne (by rw [h0, List.take_zero]))
  | frame hm _ ih =>
    obtain ⟨hd, hr⟩ := h
    cases hd with
    | rest => rw [hr] at hm; cases hm
    | frame hm' hd' =>
      obtain rfl := Option.some.inj (hm.symm.trans hm')
      exact ih ⟨hd', hr⟩ hn

/-! ## What all frames are like -/

/-- Every frame the cut of `xs` can come to has such a length. -/
def AllFrames (f : Framer α) (P : Nat → Prop) (xs : List α) : Prop :=
  ∀ ps r n, Cut f xs ps r → f.head r = some n → P n

variable {P Q : Nat → Prop}

theorem AllFrames.mono {xs : List α} (h : AllFrames f P xs) (hPQ : ∀ n, P n → Q n) : AllFrames f Q xs :=
  fun ps r n hc hn => hPQ n (h ps r n hc hn)

theorem AllFrames.of_append {xs ys : List α} (h : AllFrames f P (xs ++ ys)) : AllFrames f P xs :=
  fun _ _ n hc hn => h _ _ n (hc.append ys) (f.head_append _ _ _ hn)

theorem AllFrames.rest {xs r : List α} {ps : List (List α)} (h : AllFrames f P xs) (hc : Cut f xs ps r) :
    AllFrames f P r := fun _ _ n hq hn => h _ _ n (hc.trans hq) hn

theorem AllFrames.of_head_none {xs : List α} (h : f.head xs = none) : AllFrames f P xs := by
  intro ps r n hc hn
  cases hc with
  | rest => rw [h] at hn; cases hn
  | frame hn' _ => rw [h] at hn'; cases hn'

theorem AllFrames.of_mem {xs r : List α} {ps : List (List α)} (h : AllFrames f P xs) (hc : Cut f xs ps r) :
    ∀ p ∈ ps, P p.length := by
  induction hc with
  | rest => intro p hp; cases hp
  | @frame xs r ps n hn _ ih =>
    intro p hp
    rcases List.mem_cons.1 hp with rfl | hp
    · rw [List.length_take_of_le (f.head_le _ _ hn)]
      exact h [] xs n (.rest _) hn
    · exact ih (h.rest (.frame hn (.rest _))) p hp

/-- The frames that have been cut off, and those of what is left. -/
theorem AllFrames.of_cut {xs r : List α} {ps : List (List α)} (hc : Cut f xs ps r) (hps : ∀ p ∈ ps, P p.length)
    (hr : AllFrames f P r) : AllFrames f P xs := by
  induction hc with
  | rest => exact hr
  | @frame xs r ps n hn _ ih =>
    have hP : P n := by
      have := hps _ List.mem_cons_self
      rwa [List.length_take_of_le (f.head_le _ _ hn)] at this
    intro qs r' m hq hm
    cases hq with
    | rest => exact Option.some.inj (hn.symm.trans hm) ▸ hP
    | frame hn' hq' =>
      obtain rfl := Option.some.inj (hn.symm.trans hn')
      exact ih (fun p hp => hps p (List.mem_cons_of_mem _ hp)) hr _ _ m hq' hm

/-- **Frames put one behind the other are cut off one by one**, when each is a frame in front of whatever follows. -/
theorem Cut.of_flatten : ∀ (ps : List (List α)), (∀ p ∈ ps, ∀ xs, f.head (p ++ xs) = some p.length) →
    Cut f ps.flatten ps []
  | [], _ => .rest []
  | p :: ps, h => by
    have hc := Cut.of_flatten ps (fun q hq => h q (List.mem_cons_of_mem _ hq))
    have hn := h p List.mem_cons_self ps.flatten
    have hframe : Cut f (p ++ ps.flatten) ((p ++ ps.flatten).take p.length :: ps) [] :=
      .frame hn (by rw [List.drop_left]; exact hc)
    rwa [List.take_left] at hframe

theorem Cut.done_of_done {xs r r' : List α} {ps qs : List (List α)} (h : Cut f xs ps r) (h' : Done f xs qs r') :
    ∃ rest, qs = ps ++ rest ∧ Done f r rest r' := by
  induction h generalizing qs with
  | rest => exact ⟨qs, rfl, h'⟩
  | frame hn _ ih =>
    obtain ⟨hc, hr⟩ := h'
    cases hc with
    | rest => rw [hr] at hn; cases hn
    | frame hn' hc =>
      obtain rfl := Option.some.inj (hn.symm.trans hn')
      obtain ⟨rest, rfl, hd⟩ := ih ⟨hc, hr⟩
      exact ⟨rest, rfl, hd⟩

/-- **The frames cut off a part of a stream of frames are the first of them.** -/
theorem Cut.prefix_of_flatten {xs r : List α} {ps qs : List (List α)} (h : Cut f xs qs r) (hxs : xs <+: ps.flatten)
    (hps : ∀ p ∈ ps, ∀ xs, f.head (p ++ xs) = some p.length) (hnil : f.head [] = none) : qs <+: ps := by
  obtain ⟨ys, hys⟩ := hxs
  have hall : Done f (xs ++ ys) ps [] := by
    rw [hys]
    exact ⟨Cut.of_flatten ps hps, hnil⟩
  obtain ⟨rest, hrest, -⟩ := (h.append ys).done_of_done hall
  exact ⟨rest, hrest.symm⟩

/-- The stream arrives in parts, and after each part everything that can be cut off is. -/
inductive Fed (f : Framer α) : List α → List (List α) → List (List α) → List α → Prop
  | done (r : List α) : Fed f r [] [] r
  | part {r r' r'' c : List α} {cs ps qs : List (List α)} : Done f (r ++ c) ps r' → Fed f r' cs qs r'' →
      Fed f r (c :: cs) (ps ++ qs) r''

/-- **Cutting part by part is cutting the whole.** -/
theorem Fed.cut {r r' : List α} {cs ps : List (List α)} (h : Fed f r cs ps r') : Cut f (r ++ cs.flatten) ps r' := by
  induction h with
  | done r => simpa using Cut.rest (f := f) r
  | @part r r₁ r₂ c cs ps qs hd _ ih =>
    have h1 := hd.1.append cs.flatten
    rw [List.append_assoc] at h1
    exact h1.trans ih

theorem Fed.done_of_head {r r' : List α} {cs ps : List (List α)} (h : Fed f r cs ps r') (hr : f.head r = none) :
    Done f (r ++ cs.flatten) ps r' := by
  refine ⟨h.cut, ?_⟩
  induction h with
  | done r => exact hr
  | part hd _ ih => exact ih hd.2

end Frames
