import Chttpc.Program

/-!
# Two programs side by side

Two programs, each over its own state, are started in states that are related.  If both come
back, what they have returned and the states they have left are related again (`Beside`).  The
judgment composes along `bind`, tests and external calls as `Triple` does, so what one run may
tell from the other is checked once for each primitive update.

Nothing is said of a program whose partner is still inside a call.
-/

namespace Chttpc.Program
variable {σ τ α β γ δ : Type}

/-- From states in `R`, if both programs return, the two values and the two states are in `Q`. -/
def Beside (R : σ → τ → Prop) (m : Program σ α) (n : Program τ β)
    (Q : α → β → σ → τ → Prop) : Prop :=
  ∀ s t, R s t → ∀ s' a t' b, m s = (s', some a) → n t = (t', some b) → Q a b s' t'

/-- Both return the same value, and states in `R`. -/
def Alongside (R : σ → τ → Prop) (m : Program σ α) (n : Program τ α) (R' : σ → τ → Prop) : Prop :=
  Beside R m n fun a b s t => a = b ∧ R' s t

section Rules
variable {R S : σ → τ → Prop} {Q : α → β → σ → τ → Prop}

theorem Beside.pure {a : α} {b : β} (h : ∀ s t, R s t → Q a b s t) :
    Beside R (pure a : Program σ α) (pure b : Program τ β) Q := by
  intro s t hst s' a' t' b' hm hn
  cases hm
  cases hn
  exact h s t hst

theorem Beside.bind {m : Program σ α} {n : Program τ β} {f : α → Program σ γ}
    {g : β → Program τ δ} {Q' : γ → δ → σ → τ → Prop} (hm : Beside R m n Q)
    (hf : ∀ a b, Beside (Q a b) (f a) (g b) Q') : Beside R (m >>= f) (n >>= g) Q' := by
  intro s t hst s'' c t'' d hleft hright
  obtain ⟨s', a, hms, hfs⟩ := bind_eq_some hleft
  obtain ⟨t', b, hnt, hgt⟩ := bind_eq_some hright
  exact hf a b s' t' (hm s t hst s' a t' b hms hnt) s'' c t'' d hfs hgt

theorem Beside.update {f : σ → σ} {g : τ → τ} {Q : Unit → Unit → σ → τ → Prop}
    (h : ∀ s t, R s t → Q () () (f s) (g t)) : Beside R (update f) (update g) Q := by
  intro s t hst s' a t' b hm hn
  cases hm
  cases hn
  exact h s t hst

theorem Beside.read {f : σ → α} {g : τ → β} (h : ∀ s t, R s t → Q (f s) (g t) s t) :
    Beside R (read f) (read g) Q := by
  intro s t hst s' a t' b hm hn
  cases hm
  cases hn
  exact h s t hst

theorem Beside.inside {n : Program τ β} : Beside R (inside : Program σ α) n Q := by
  intro s t _ s' a t' b hm
  cases hm

theorem Beside.inside_right {m : Program σ α} : Beside R m (Program.inside : Program τ β) Q := by
  intro s t _ s' a t' b _ hn
  cases hn

theorem Beside.ite {c : Prop} [Decidable c] {m m' : Program σ α} {n n' : Program τ β}
    (hyes : c → Beside R m n Q) (hno : ¬ c → Beside R m' n' Q) :
    Beside R (if c then m else m') (if c then n else n') Q := by
  split
  · exact hyes ‹_›
  · exact hno ‹_›

theorem Alongside.pure (a : α) : Alongside R (pure a : Program σ α) (pure a : Program τ α) R :=
  Beside.pure fun _ _ hst => ⟨rfl, hst⟩

/-- What both have returned is one value. -/
theorem Alongside.bind {m : Program σ α} {n : Program τ α} {f : α → Program σ γ}
    {g : α → Program τ δ} {Q' : γ → δ → σ → τ → Prop} (hm : Alongside R m n S)
    (hf : ∀ a, Beside S (f a) (g a) Q') : Beside R (m >>= f) (n >>= g) Q' := by
  refine Beside.bind hm fun a b => ?_
  rintro s t ⟨rfl, hst⟩
  exact hf a s t hst

theorem Alongside.update {f : σ → σ} {g : τ → τ} (h : ∀ s t, R s t → S (f s) (g t)) :
    Alongside R (update f) (update g) S :=
  Beside.update fun s t hst => ⟨rfl, h s t hst⟩

theorem Alongside.read {f : σ → α} {g : τ → α} (h : ∀ s t, R s t → f s = g t) :
    Alongside R (read f) (read g) R :=
  Beside.read fun s t hst => ⟨h s t hst, hst⟩

/-- The outside world answers both in the same way. -/
theorem Alongside.call {f : σ → σ} {g : τ → τ} {r : Option α}
    (h : ∀ s t, R s t → S (f s) (g t)) : Alongside R (call f r) (call g r) S := by
  intro s t hst s' a t' b hm hn
  cases r with
  | none => cases hm
  | some c =>
    cases hm
    cases hn
    exact ⟨rfl, h s t hst⟩

end Rules

/-! ## Programs that throw -/

section Lockstep
variable {ε : Type} {R : σ → τ → Prop} {rel : α → β → Prop} {rel' : γ → δ → Prop}

/-- Two programs have come to the same, as far as `rel` tells values apart. -/
inductive SameOutcome (rel : α → β → Prop) : Option (Except ε α) → Option (Except ε β) → Prop
  | inside : SameOutcome rel none none
  | throws (e : ε) : SameOutcome rel (some (.error e)) (some (.error e))
  | returns {a : α} {b : β} (h : rel a b) : SameOutcome rel (some (.ok a)) (some (.ok b))

/-- From states in `R` the two programs come to the same, and they leave states in `R`. -/
def Lockstep (R : σ → τ → Prop) (rel : α → β → Prop) (m : Throws ε σ α) (n : Throws ε τ β) : Prop :=
  ∀ s t, R s t → R (m s).1 (n t).1 ∧ SameOutcome rel (m s).2 (n t).2

theorem Lockstep.pure {a : α} {b : β} (h : rel a b) :
    Lockstep R rel (pure a : Throws ε σ α) (pure b : Throws ε τ β) :=
  fun _ _ hst => ⟨hst, .returns h⟩

theorem Lockstep.throw (e : ε) :
    Lockstep R rel (throw e : Throws ε σ α) (throw e : Throws ε τ β) :=
  fun _ _ hst => ⟨hst, .throws e⟩

theorem Lockstep.bind {m : Throws ε σ α} {n : Throws ε τ β} {f : α → Throws ε σ γ}
    {g : β → Throws ε τ δ} (hm : Lockstep R rel m n)
    (hf : ∀ a b, rel a b → Lockstep R rel' (f a) (g b)) : Lockstep R rel' (m >>= f) (n >>= g) := by
  intro s t hst
  obtain ⟨hR, houtcome⟩ := hm s t hst
  rcases hms : m s with ⟨s', a⟩
  rcases hnt : n t with ⟨t', b⟩
  rw [hms, hnt] at hR houtcome
  cases houtcome with
  | inside =>
    rw [Throws.bind_inside hms, Throws.bind_inside hnt]
    exact ⟨hR, .inside⟩
  | throws e =>
    rw [Throws.bind_error hms, Throws.bind_error hnt]
    exact ⟨hR, .throws e⟩
  | returns h =>
    rw [Throws.bind_ok hms, Throws.bind_ok hnt]
    exact hf _ _ h s' t' hR

/-- What both have returned is one value. -/
theorem Lockstep.bind_eq {m : Throws ε σ α} {n : Throws ε τ α} {f : α → Throws ε σ γ}
    {g : α → Throws ε τ δ} (hm : Lockstep R Eq m n) (hf : ∀ a, Lockstep R rel' (f a) (g a)) :
    Lockstep R rel' (m >>= f) (n >>= g) := by
  refine hm.bind ?_
  rintro a _ rfl
  exact hf a

theorem Lockstep.update {f : σ → σ} {g : τ → τ} (h : ∀ s t, R s t → R (f s) (g t)) :
    Lockstep R Eq (Throws.update f : Throws ε σ Unit) (Throws.update g : Throws ε τ Unit) :=
  fun s t hst => ⟨h s t hst, .returns rfl⟩

theorem Lockstep.read {f : σ → α} {g : τ → β} (h : ∀ s t, R s t → rel (f s) (g t)) :
    Lockstep R rel (Throws.read f : Throws ε σ α) (Throws.read g : Throws ε τ β) :=
  fun s t hst => ⟨hst, .returns (h s t hst)⟩

theorem Lockstep.ite {c : Prop} [Decidable c] {m m' : Throws ε σ α} {n n' : Throws ε τ β}
    (hyes : c → Lockstep R rel m n) (hno : ¬ c → Lockstep R rel m' n') :
    Lockstep R rel (if c then m else m') (if c then n else n') := by
  split
  · exact hyes ‹_›
  · exact hno ‹_›

end Lockstep
end Chttpc.Program
