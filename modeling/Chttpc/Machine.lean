import Mathlib.Data.List.Infix
import Mathlib.Data.Option.Basic

/-!
# Machines that answer requests

A machine takes a request and answers it in a new state; `none` is a request on which it
fails, as a program does that follows a dangling pointer.  `run` makes requests one after
another and collects the answers.

A concrete machine simulates an abstract one under a relation between their states if it
answers each request that the abstract machine answers, in the same way, and the new states
are related again (`Simulates`).  Then it answers every list of requests in the same way
(`Simulates.run`), and simulations compose (`Simulates.trans`).
-/

namespace Chttpc.Machine
variable {σ τ υ α β : Type}

/-- The answers to the requests, and the state behind the last of them. -/
def run (step : σ → α → Option (σ × β)) : σ → List α → Option (σ × List β)
  | s, [] => some (s, [])
  | s, a :: requests =>
      match step s a with
      | none => none
      | some (s', answer) => (run step s' requests).map fun (s'', answers) => (s'', answer :: answers)

/-- A machine that never fails. -/
def total (step : σ → α → σ × β) (s : σ) (a : α) : Option (σ × β) := some (step s a)

/-- The concrete machine does what the abstract machine does. -/
def Simulates (R : σ → τ → Prop) (concrete : σ → α → Option (σ × β))
    (abstract : τ → α → Option (τ × β)) : Prop :=
  ∀ s t a t' answer, R s t → abstract t a = some (t', answer) →
    ∃ s', concrete s a = some (s', answer) ∧ R s' t'

variable {R : σ → τ → Prop} {R' : τ → υ → Prop} {concrete : σ → α → Option (σ × β)}
  {middle : τ → α → Option (τ × β)} {abstract : υ → α → Option (υ × β)}

theorem run_cons_some {step : σ → α → Option (σ × β)} {s s' : σ} {a : α} {answer : β}
    (h : step s a = some (s', answer)) (requests : List α) :
    run step s (a :: requests) =
      (run step s' requests).map fun (s'', answers) => (s'', answer :: answers) := by
  rw [run, h]

/-- **Whole runs are simulated.** -/
theorem Simulates.run (h : Simulates R concrete middle) :
    ∀ (requests : List α) (s : σ) (t t' : τ) (answers : List β), R s t →
      Machine.run middle t requests = some (t', answers) →
        ∃ s', Machine.run concrete s requests = some (s', answers) ∧ R s' t'
  | [], s, t, t', answers, hst, hrun => by
      cases hrun
      exact ⟨s, rfl, hst⟩
  | a :: requests, s, t, t', answers, hst, hrun => by
      cases hstep : middle t a with
      | none =>
        rw [Machine.run, hstep] at hrun
        cases hrun
      | some next =>
        obtain ⟨t₁, answer⟩ := next
        rw [run_cons_some hstep] at hrun
        obtain ⟨_, hlater, heq⟩ := Option.map_eq_some_iff.mp hrun
        cases heq
        obtain ⟨s₁, hs₁, hst₁⟩ := h s t a t₁ answer hst hstep
        obtain ⟨s₂, hs₂, hst₂⟩ := h.run requests s₁ t₁ _ _ hst₁ hlater
        exact ⟨s₂, by rw [run_cons_some hs₁, hs₂]; rfl, hst₂⟩

theorem Simulates.trans (h : Simulates R concrete middle) (h' : Simulates R' middle abstract) :
    Simulates (fun s u => ∃ t, R s t ∧ R' t u) concrete abstract := by
  rintro s u a u' answer ⟨t, hst, htu⟩ hstep
  obtain ⟨t', ht', htu'⟩ := h' t u a u' answer htu hstep
  obtain ⟨s', hs', hst'⟩ := h s t a t' answer hst ht'
  exact ⟨s', hs', t', hst', htu'⟩

/-- A machine that never fails answers every list of requests. -/
theorem exists_run_total (step : σ → α → σ × β) :
    ∀ (requests : List α) (s : σ), ∃ r, Machine.run (total step) s requests = some r
  | [], s => ⟨(s, []), rfl⟩
  | a :: requests, s => by
      obtain ⟨⟨s', answers⟩, h⟩ := exists_run_total step requests (step s a).1
      have hstep : total step s a = some ((step s a).1, (step s a).2) := rfl
      exact ⟨(s', (step s a).2 :: answers), by rw [run_cons_some hstep, h]; rfl⟩

/-- **A count that no step lowers** is the same after a run exactly when no step of the run
raises it. -/
theorem run_count_iff {step : σ → α → Option (σ × β)} {count : σ → Nat} {Raises : σ → α → Prop}
    (hstep : ∀ s a s' answer, step s a = some (s', answer) →
      count s ≤ count s' ∧ (count s' = count s ↔ ¬ Raises s a)) (requests : List α) :
    ∀ {s s' : σ} {answers : List β}, run step s requests = some (s', answers) →
      count s ≤ count s' ∧ (count s' = count s ↔ ∀ before a, before ++ [a] <+: requests →
        ∀ s₁ answers₁, run step s before = some (s₁, answers₁) → ¬ Raises s₁ a) := by
  induction requests with
  | nil =>
    intro s s' answers hrun
    cases hrun
    refine ⟨Nat.le_refl _, iff_of_true rfl fun before a hpre => ?_⟩
    simp at hpre
  | cons a requests ih =>
    intro s s' answers hrun
    cases hfirst : step s a with
    | none =>
      rw [run, hfirst] at hrun
      cases hrun
    | some next =>
      obtain ⟨s₁, answer⟩ := next
      rw [run_cons_some hfirst] at hrun
      obtain ⟨⟨s₂, answers₂⟩, hlater, heq⟩ := Option.map_eq_some_iff.mp hrun
      cases heq
      obtain ⟨hle, hiff⟩ := hstep s a s₁ answer hfirst
      obtain ⟨hle', hiff'⟩ := ih hlater
      refine ⟨hle.trans hle', ?_⟩
      have hboth : count s' = count s ↔ count s₁ = count s ∧ count s' = count s₁ := by omega
      rw [hboth, hiff, hiff']
      constructor
      · rintro ⟨hnow, hrest⟩ before b hpre t answers' hbefore
        cases before with
        | nil =>
          cases hbefore
          obtain rfl := (List.cons_prefix_cons.mp hpre).1
          exact hnow
        | cons c before =>
          obtain ⟨rfl, htail⟩ := List.cons_prefix_cons.mp hpre
          rw [run_cons_some hfirst] at hbefore
          obtain ⟨⟨_, answers₁⟩, hlater, heq⟩ := Option.map_eq_some_iff.mp hbefore
          cases heq
          exact hrest before b htail t answers₁ hlater
      · intro hall
        refine ⟨hall [] a ⟨requests, rfl⟩ s [] rfl, fun before b hpre t answers' hbefore => ?_⟩
        refine hall (a :: before) b (List.cons_prefix_cons.mpr ⟨rfl, hpre⟩) t (answer :: answers') ?_
        rw [run_cons_some hfirst, hbefore]
        rfl

end Chttpc.Machine
