import Mathlib.Data.List.Infix

/-!
# Runs of a step function

A run feeds a list of inputs to a step function, from left to right; the states
it reaches are those after each of its initial segments.  `run_invariant` is the
induction for an invariant.

`holds_throughout_iff` is for a property that only some steps keep.  If an
invariant implies the property, a step under a condition keeps the invariant,
and a step outside the condition loses the property, then the property holds in
every state reached exactly when every step meets the condition.
-/

namespace Chttpc.Runs
variable {σ α : Type*} {I P : σ → Prop} {C : σ → α → Prop} {ok : α → Prop}

/-- The state after the inputs. -/
def run (step : σ → α → σ) (s : σ) (inputs : List α) : σ := inputs.foldl step s

@[simp] theorem run_nil (step : σ → α → σ) (s : σ) : run step s [] = s := rfl

@[simp] theorem run_cons (step : σ → α → σ) (s : σ) (a : α) (inputs : List α) :
    run step s (a :: inputs) = run step (step s a) inputs := rfl

theorem run_append (step : σ → α → σ) (s : σ) (inputs inputs' : List α) :
    run step s (inputs ++ inputs') = run step (run step s inputs) inputs' := List.foldl_append

/-- What every step keeps holds after every run. -/
theorem run_invariant (step : σ → α → σ) (hstep : ∀ s a, I s → ok a → I (step s a)) :
    ∀ (inputs : List α) (s : σ), I s → (∀ a ∈ inputs, ok a) → I (run step s inputs)
  | [], _, h, _ => h
  | a :: inputs, s, h, hok =>
      run_invariant step hstep inputs (step s a) (hstep s a h (hok a List.mem_cons_self))
        fun b hb => hok b (List.mem_cons_of_mem _ hb)

/-- **A property holds throughout a run exactly when each step meets the
condition**, if the condition is what keeps the invariant behind the property. -/
theorem holds_throughout_iff (ok : σ → α → Prop) (step : σ → α → σ) (hP : ∀ s, I s → P s)
    (hstep : ∀ s a, I s → ok s a → C s a → I (step s a))
    (hfail : ∀ s a, I s → ok s a → ¬ C s a → ¬ P (step s a)) (inputs : List α) (s : σ) (h : I s)
    (hok : ∀ before a, before ++ [a] <+: inputs → ok (run step s before) a) :
    (∀ before, before <+: inputs → P (run step s before)) ↔
      ∀ before a, before ++ [a] <+: inputs → C (run step s before) a := by
  induction inputs generalizing s with
  | nil =>
    constructor
    · intro _ before a hpre
      simp at hpre
    · intro _ before hpre
      rw [List.prefix_nil.mp hpre]
      exact hP s h
  | cons a inputs ih =>
    have hoka : ok s a := hok [] a ⟨inputs, rfl⟩
    have hrest : ∀ before b, before ++ [b] <+: inputs → ok (run step (step s a) before) b :=
      fun before b hpre => hok (a :: before) b (List.cons_prefix_cons.mpr ⟨rfl, hpre⟩)
    constructor
    · intro hall
      have hC : C s a := by
        by_contra hnot
        exact hfail s a h hoka hnot (hall [a] ⟨inputs, rfl⟩)
      have hnext := (ih (step s a) (hstep s a h hoka hC) hrest).mp fun before hpre =>
        hall (a :: before) (List.cons_prefix_cons.mpr ⟨rfl, hpre⟩)
      intro before b hpre
      cases before with
      | nil => rwa [(List.cons_prefix_cons.mp hpre).1]
      | cons c before =>
        obtain ⟨rfl, htail⟩ := List.cons_prefix_cons.mp hpre
        exact hnext before b htail
    · intro hall before hpre
      have hC : C s a := hall [] a ⟨inputs, rfl⟩
      cases before with
      | nil => exact hP s h
      | cons c before =>
        obtain ⟨rfl, htail⟩ := List.cons_prefix_cons.mp hpre
        refine (ih (step s c) (hstep s c h hoka hC) hrest).mpr (fun before b hb => ?_) before htail
        exact hall (c :: before) b (List.cons_prefix_cons.mpr ⟨rfl, hb⟩)

/-- The inputs of a run, one by one. -/
theorem mem_of_concat_prefix {before inputs : List α} {a : α} (h : before ++ [a] <+: inputs) :
    a ∈ inputs := h.subset (List.mem_append_right before (List.mem_singleton_self a))

/-- What holds at each position of a list. -/
theorem forall_concat_prefix {Q : List α → α → Prop} {inputs : List α}
    (h : ∀ i (hi : i < inputs.length), Q (inputs.take i) inputs[i]) :
    ∀ before a, before ++ [a] <+: inputs → Q before a := by
  rintro before a ⟨rest, rfl⟩
  have hat := h before.length (by simp)
  simpa using hat

/-! ## Events in a ledger -/

section Events
variable {a b : α} {ledger : List α}

/-- Between any two `a` there is a `b`. -/
def Apart (a b : α) (ledger : List α) : Prop :=
  ∀ before between after, ledger = before ++ a :: between ++ a :: after → b ∈ between

/-- There has been an `a` since the last `b`. -/
def Since (a b : α) (ledger : List α) : Prop :=
  ∃ before after, ledger = before ++ a :: after ∧ b ∉ after

theorem apart_nil (a b : α) : Apart a b [] := by
  intro before between after h
  simp at h

theorem not_since_nil (a b : α) : ¬ Since a b [] := by
  rintro ⟨before, after, h, -⟩
  simp at h

/-- What is kept apart in a ledger is kept apart in its beginning. -/
theorem Apart.of_prefix {ledger' : List α} (h : Apart a b ledger') (hpre : ledger <+: ledger') :
    Apart a b ledger := by
  obtain ⟨rest, rfl⟩ := hpre
  rintro before between after rfl
  exact h before between (after ++ rest) (by simp)

theorem since_concat_self (a b : α) (ledger : List α) : Since a b (ledger ++ [a]) :=
  ⟨ledger, [], rfl, List.not_mem_nil⟩

/-- Other events do not matter. -/
theorem Since.concat {c : α} (h : Since a b ledger) (hne : c ≠ b) : Since a b (ledger ++ [c]) := by
  obtain ⟨before, after, rfl, hnot⟩ := h
  exact ⟨before, after ++ [c], by simp, by simp [hnot, Ne.symm hne]⟩

theorem not_since_concat (hne : a ≠ b) (ledger : List α) : ¬ Since a b (ledger ++ [b]) := by
  rintro ⟨before, after, h, hnot⟩
  rcases List.eq_nil_or_concat after with rfl | ⟨init, last, rfl⟩
  · exact hne (List.singleton_inj.mp (List.append_inj_right' h rfl)).symm
  · have hconcat : ledger ++ [b] = (before ++ a :: init) ++ [last] := by simpa using h
    rw [List.concat_eq_append, List.singleton_inj.mp (List.append_inj_right' hconcat rfl)] at hnot
    exact hnot (by simp)

/-- One more `a` is kept apart exactly if there has been none since the last `b`. -/
theorem apart_concat_self : Apart a b (ledger ++ [a]) ↔ Apart a b ledger ∧ ¬ Since a b ledger := by
  constructor
  · intro h
    refine ⟨h.of_prefix (List.prefix_append _ _), ?_⟩
    rintro ⟨before, after, rfl, hnot⟩
    exact hnot (h before after [] rfl)
  · rintro ⟨hapart, hsince⟩ before between after h
    rcases List.eq_nil_or_concat after with rfl | ⟨init, last, rfl⟩
    · have hledger : ledger = before ++ a :: between := List.append_inj_left' h rfl
      by_contra hnot
      exact hsince ⟨before, between, hledger, hnot⟩
    · have hconcat : ledger ++ [a] = (before ++ a :: between ++ a :: init) ++ [last] := by
        simpa using h
      exact hapart before between init (List.append_inj_left' hconcat rfl)

theorem apart_concat (hne : a ≠ b) (h : Apart a b ledger) : Apart a b (ledger ++ [b]) := by
  intro before between after heq
  rcases List.eq_nil_or_concat after with rfl | ⟨init, last, rfl⟩
  · exact absurd (List.singleton_inj.mp (List.append_inj_right' heq rfl)).symm hne
  · have hconcat : ledger ++ [b] = (before ++ a :: between ++ a :: init) ++ [last] := by
      simpa using heq
    exact h before between init (List.append_inj_left' hconcat rfl)

end Events

end Chttpc.Runs
