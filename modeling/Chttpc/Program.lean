import Chttpc.Runs

/-!
# Programs that call out and may not come back

A program over a state that makes external calls is caught, at any instant,
either after it has returned a value or while one of those calls is still
running.  `Program σ α` keeps both: the state reached, and the value if there
is one.  A call that has not returned stops the program there, so the state is
the one an observer would see at that instant; truncating what the outside
world does therefore yields every intermediate state of a run.

`Triple` is the matching judgment.  It has two postconditions, one for the
states in which the program has returned and one for the states in which it is
still inside a call.  `Keeps` is the special case of an invariant, and it is
all a safety proof needs: it composes along `bind`, tests and external calls,
so an invariant is checked once for each primitive update and never again for
the control flow around them.
-/

namespace Chttpc

/-- A program over the state `σ`: the state reached, and the value returned if
the program has returned. -/
def Program (σ α : Type) : Type := σ → σ × Option α

namespace Program
variable {σ α β : Type}

/-- Runs `f` after `m`, if `m` has returned. -/
def andThen (m : Program σ α) (f : α → Program σ β) : Program σ β := fun s =>
  match m s with
  | (s', some a) => f a s'
  | (s', none) => (s', none)

instance : Monad (Program σ) where
  pure a := fun s => (s, some a)
  bind := andThen

/-- Updates the state. -/
def update (f : σ → σ) : Program σ Unit := fun s => (f s, some ())

/-- Reads the state. -/
def read (f : σ → α) : Program σ α := fun s => (s, some (f s))

/-- A call whose effect is `f` and which has returned `result`, or has not
returned yet. -/
def call (f : σ → σ) (result : Option α) : Program σ α := fun s => (f s, result)

/-- A call that has not returned. -/
def inside : Program σ α := fun s => (s, none)

@[simp] theorem pure_apply (a : α) (s : σ) : (pure a : Program σ α) s = (s, some a) := rfl

@[simp] theorem update_apply (f : σ → σ) (s : σ) : update f s = (f s, some ()) := rfl

@[simp] theorem read_apply (f : σ → α) (s : σ) : read f s = (s, some (f s)) := rfl

@[simp] theorem call_apply (f : σ → σ) (r : Option α) (s : σ) : call f r s = (f s, r) := rfl

@[simp] theorem inside_apply (s : σ) : (inside : Program σ α) s = (s, none) := rfl

theorem bind_apply (m : Program σ α) (f : α → Program σ β) (s : σ) :
    (m >>= f) s = match m s with
      | (s', some a) => f a s'
      | (s', none) => (s', none) := rfl

@[simp] theorem bind_some {m : Program σ α} {f : α → Program σ β} {s s' : σ} {a : α}
    (h : m s = (s', some a)) : (m >>= f) s = f a s' := by
  rw [bind_apply, h]

@[simp] theorem bind_none {m : Program σ α} {f : α → Program σ β} {s s' : σ}
    (h : m s = (s', none)) : (m >>= f) s = (s', none) := by
  rw [bind_apply, h]

theorem bind_bind {γ : Type} (m : Program σ α) (f : α → Program σ β) (g : β → Program σ γ) :
    (m >>= f) >>= g = m >>= fun a => f a >>= g := by
  funext s
  rcases hm : m s with ⟨s', _ | a⟩
  · rw [bind_none (bind_none hm), bind_none hm]
  · rw [bind_apply, bind_some hm, bind_some hm, bind_apply]

theorem bind_return (m : Program σ α) : (m >>= fun a => (pure a : Program σ α)) = m := by
  funext s
  rcases hm : m s with ⟨s', _ | a⟩
  · rw [bind_none hm]
  · rw [bind_some hm, pure_apply]

/-- A program that has returned from `m >>= f` has returned from `m` first. -/
theorem bind_eq_some {m : Program σ α} {f : α → Program σ β} {s s'' : σ} {b : β}
    (h : (m >>= f) s = (s'', some b)) :
    ∃ s' a, m s = (s', some a) ∧ f a s' = (s'', some b) := by
  rw [bind_apply] at h
  split at h
  · rename_i s' a hm
    exact ⟨s', a, hm, h⟩
  · cases h

/-- Runs `f` for each element, one after another. -/
def forEach {γ : Type} (f : γ → Program σ α) : List γ → Program σ Unit
  | [] => pure ()
  | c :: cs => f c >>= fun _ => forEach f cs

/-! ## Triples -/

/-- From a state in `P`, the program has returned a value and a state in `Q`, or
it is inside a call in a state in `I`. -/
def Triple (P : σ → Prop) (m : Program σ α) (Q : α → σ → Prop) (I : σ → Prop) : Prop :=
  ∀ s, P s → match m s with
    | (s', some a) => Q a s'
    | (s', none) => I s'

section Rules
variable {P P' I I' : σ → Prop} {Q Q' : α → σ → Prop} {R : β → σ → Prop}

theorem Triple.weaken {m : Program σ α} (h : Triple P m Q I) (hP : ∀ s, P' s → P s)
    (hQ : ∀ a s, Q a s → Q' a s) (hI : ∀ s, I s → I' s) : Triple P' m Q' I' := by
  intro s hs
  have hm := h s (hP s hs)
  split at hm
  · exact hQ _ _ hm
  · exact hI _ hm

theorem Triple.pure {a : α} (h : ∀ s, P s → Q a s) : Triple P (pure a) Q I := h

theorem Triple.bind {m : Program σ α} {f : α → Program σ β} (hm : Triple P m Q I)
    (hf : ∀ a, Triple (Q a) (f a) R I) : Triple P (m >>= f) R I := by
  intro s hs
  have h := hm s hs
  rcases hr : m s with ⟨s', _ | a⟩
  · rw [hr] at h
    rw [bind_none hr]
    exact h
  · rw [hr] at h
    rw [bind_some hr]
    exact hf a s' h

theorem Triple.update {f : σ → σ} {Q : Unit → σ → Prop} (h : ∀ s, P s → Q () (f s)) :
    Triple P (update f) Q I := h

theorem Triple.read {f : σ → α} (h : ∀ s, P s → Q (f s) s) : Triple P (read f) Q I := h

theorem Triple.call {f : σ → σ} {r : Option α} (hQ : ∀ s a, P s → r = some a → Q a (f s))
    (hI : ∀ s, P s → I (f s)) : Triple P (call f r) Q I := by
  intro s hs
  cases r with
  | none => exact hI s hs
  | some a => exact hQ s a hs rfl

theorem Triple.inside (h : ∀ s, P s → I s) : Triple P (inside : Program σ α) Q I := h

theorem Triple.forEach {γ : Type} {f : γ → Program σ α} : ∀ {cs : List γ},
    (∀ c ∈ cs, Triple P (f c) (fun _ => P) I) → Triple P (forEach f cs) (fun _ => P) I
  | [], _ => Triple.pure fun _ hs => hs
  | c :: _, h =>
      Triple.bind (h c List.mem_cons_self) fun _ =>
        Triple.forEach fun d hd => h d (List.mem_cons_of_mem _ hd)

theorem Triple.ite {c : Prop} [Decidable c] {m n : Program σ α}
    (hm : c → Triple P m Q I) (hn : ¬ c → Triple P n Q I) :
    Triple P (if c then m else n) Q I := by
  split
  · exact hm ‹_›
  · exact hn ‹_›

end Rules

/-! ## Invariants -/

/-- The program keeps `I`, at every instant. -/
def Keeps (I : σ → Prop) (m : Program σ α) : Prop := Triple I m (fun _ => I) I

section Keeps
variable {I : σ → Prop}

/-- Whether the program has returned does not matter to the postcondition. -/
theorem triple_iff {P : σ → Prop} {m : Program σ α} :
    Triple P m (fun _ => I) I ↔ ∀ s, P s → I (m s).1 := by
  constructor
  · intro h s hs
    have hm := h s hs
    split at hm <;> simp_all
  · intro h s hs
    have hm := h s hs
    split <;> simp_all

theorem keeps_iff {m : Program σ α} : Keeps I m ↔ ∀ s, I s → I (m s).1 := triple_iff

theorem Keeps.pure (a : α) : Keeps I (pure a : Program σ α) := Triple.pure fun _ hs => hs

theorem Keeps.bind {m : Program σ α} {f : α → Program σ β} (hm : Keeps I m)
    (hf : ∀ a, Keeps I (f a)) : Keeps I (m >>= f) := Triple.bind hm hf

theorem Keeps.update {f : σ → σ} (h : ∀ s, I s → I (f s)) : Keeps I (update f) :=
  Triple.update h

theorem Keeps.read (f : σ → α) : Keeps I (read f) := Triple.read fun _ hs => hs

theorem Keeps.call {f : σ → σ} {r : Option α} (h : ∀ s, I s → I (f s)) : Keeps I (call f r) :=
  Triple.call (fun s _ hs _ => h s hs) h

theorem Keeps.inside : Keeps I (inside : Program σ α) := Triple.inside fun _ hs => hs

theorem Keeps.ite {c : Prop} [Decidable c] {m n : Program σ α}
    (hm : c → Keeps I m) (hn : ¬ c → Keeps I n) : Keeps I (if c then m else n) :=
  Triple.ite hm hn

theorem Keeps.forEach {γ : Type} {f : γ → Program σ α} {cs : List γ}
    (h : ∀ c ∈ cs, Keeps I (f c)) : Keeps I (forEach f cs) := Triple.forEach h

end Keeps

/-! ## Programs that return -/

/-- The program returns, whatever the state. -/
def Returns (m : Program σ α) : Prop := ∀ s, ∃ s' a, m s = (s', some a)

section Returns

theorem Returns.pure (a : α) : Returns (pure a : Program σ α) := fun s => ⟨s, a, rfl⟩

theorem Returns.update (f : σ → σ) : Returns (update f) := fun s => ⟨f s, (), rfl⟩

theorem Returns.read (f : σ → α) : Returns (read f) := fun s => ⟨s, f s, rfl⟩

theorem Returns.call {f : σ → σ} {r : Option α} (h : r ≠ none) : Returns (call f r) := by
  obtain ⟨a, rfl⟩ := Option.ne_none_iff_exists'.mp h
  exact fun s => ⟨f s, a, rfl⟩

theorem Returns.bind {m : Program σ α} {f : α → Program σ β} (hm : Returns m)
    (hf : ∀ a, Returns (f a)) : Returns (m >>= f) := by
  intro s
  obtain ⟨s', a, hs⟩ := hm s
  rw [bind_some hs]
  exact hf a s'

theorem Returns.ite {c : Prop} [Decidable c] {m n : Program σ α} (hm : c → Returns m)
    (hn : ¬ c → Returns n) : Returns (if c then m else n) := by
  split
  · exact hm ‹_›
  · exact hn ‹_›

end Returns

/-! ## Programs in turn -/

section InTurn
variable {γ : Type} {f : γ → Program σ α} {I P : σ → Prop} {C : σ → γ → Prop}

/-- One more program, if all those before it have returned. -/
def next (f : γ → Program σ α) (r : σ × Option Unit) (c : γ) : σ × Option Unit :=
  match r with
  | (s, some ()) => ((f c s).1, (f c s).2.map fun _ => ())
  | (s, none) => (s, none)

theorem run_next_none (f : γ → Program σ α) (s : σ) :
    ∀ cs : List γ, Runs.run (next f) (s, none) cs = (s, none)
  | [] => rfl
  | _ :: cs => run_next_none f s cs

/-- Programs in turn are a run. -/
theorem forEach_eq_run (f : γ → Program σ α) :
    ∀ (cs : List γ) (s : σ), forEach f cs s = Runs.run (next f) (s, some ()) cs
  | [], _ => rfl
  | c :: cs, s => by
      rcases hc : f c s with ⟨s', _ | a⟩
      · have hnext : next f (s, some ()) c = (s', none) := by simp [next, hc]
        rw [forEach, bind_none hc, Runs.run_cons, hnext, run_next_none]
      · have hnext : next f (s, some ()) c = (s', some ()) := by simp [next, hc]
        rw [forEach, bind_some hc, Runs.run_cons, hnext, forEach_eq_run f cs s']

/-- The first program reaches the invariant and the others keep it. -/
theorem forEach_cons {c : γ} {cs : List γ} {s : σ} (h : I (f c s).1)
    (hrest : Keeps I (forEach f cs)) : I (forEach f (c :: cs) s).1 := by
  rcases hc : f c s with ⟨s', _ | a⟩
  · rw [hc] at h
    rw [forEach, bind_none hc]
    exact h
  · rw [hc] at h
    rw [forEach, bind_some hc]
    exact keeps_iff.mp hrest s' h

/-- Programs start where those before them have returned. -/
theorem forEach_append {ds : List γ} : ∀ {cs : List γ} {s s' : σ},
    forEach f cs s = (s', some ()) → forEach f (cs ++ ds) s = forEach f ds s'
  | [], s, s', h => by
      cases h
      rfl
  | c :: cs, s, s', h => by
      obtain ⟨s₁, a, hc, hcs⟩ := bind_eq_some h
      rw [List.cons_append, forEach, bind_some hc]
      exact forEach_append hcs

theorem forEach_concat {c : γ} {cs : List γ} {s s' : σ} (h : forEach f cs s = (s', some ())) :
    (forEach f (cs ++ [c]) s).1 = (f c s').1 := by
  rw [forEach_append h]
  rcases hc : f c s' with ⟨s'', _ | a⟩
  · rw [forEach, bind_none hc]
  · rw [forEach, bind_some hc]
    rfl

/-- What a program started under the condition keeps holds at every instant, if each is
started under the condition. -/
theorem forEach_keeps (hstep : ∀ s c, I s → C s c → I (f c s).1) : ∀ (cs : List γ) (s : σ), I s →
    (∀ before c, before ++ [c] <+: cs → ∀ s', forEach f before s = (s', some ()) → C s' c) →
      I (forEach f cs s).1
  | [], _, h, _ => h
  | c :: cs, s, h, hC => by
      have hc := hstep s c h (hC [] c (List.prefix_append [c] cs) s rfl)
      rcases hrun : f c s with ⟨s', _ | a⟩
      · rw [hrun] at hc
        rw [forEach, bind_none hrun]
        exact hc
      · rw [hrun] at hc
        rw [forEach, bind_some hrun]
        refine forEach_keeps hstep cs s' hc fun before d hpre s'' hs => ?_
        refine hC (c :: before) d (List.cons_prefix_cons.mpr ⟨rfl, hpre⟩) s'' ?_
        rw [forEach, bind_some hrun]
        exact hs

theorem forEach_returned_iff (cs : List γ) (s : σ) (Q : σ → Prop) :
    (∀ s', forEach f cs s = (s', some ()) → Q s') ↔
      ((Runs.run (next f) (s, some ()) cs).2 = some () →
        Q (Runs.run (next f) (s, some ()) cs).1) := by
  rw [forEach_eq_run]
  rcases Runs.run (next f) (s, some ()) cs with ⟨s', _ | u⟩ <;> simp

/-- `Runs.holds_throughout_iff` for programs in turn: the property holds whenever a
program has returned exactly when each one is started under the condition. -/
theorem forEach_throughout_iff (hP : ∀ s, I s → P s)
    (hstep : ∀ s c, I s → C s c → ∀ s' a, f c s = (s', some a) → I s')
    (hfail : ∀ s c, I s → ¬ C s c → ∃ s' a, f c s = (s', some a) ∧ ¬ P s')
    (cs : List γ) (s : σ) (h : I s) :
    (∀ before, before <+: cs → ∀ s', forEach f before s = (s', some ()) → P s') ↔
      ∀ before c, before ++ [c] <+: cs → ∀ s', forEach f before s = (s', some ()) → C s' c := by
  have hiff := Runs.holds_throughout_iff (I := fun r : σ × Option Unit => r.2 = some () → I r.1)
    (P := fun r => r.2 = some () → P r.1) (C := fun r c => r.2 = some () → C r.1 c)
    (fun _ _ => True) (next f) (fun r hr h => hP r.1 (hr h)) ?_ ?_ cs (s, some ())
    (fun _ => h) fun _ _ _ => trivial
  · simpa only [forEach_returned_iff] using hiff
  · rintro ⟨s, _ | u⟩ c hr - hC hsome
    · cases hsome
    · rcases hc : f c s with ⟨s', _ | a⟩
      · simp [next, hc] at hsome
      · have hI := hstep s c (hr rfl) (hC rfl) s' a hc
        simpa [next, hc] using hI
  · rintro ⟨s, _ | u⟩ c hr - hC hP'
    · exact hC fun hnone => nomatch hnone
    · obtain ⟨s', a, hc, hnot⟩ := hfail s c (hr rfl) fun hCs => hC fun _ => hCs
      exact hnot (by simpa [next, hc] using hP')

/-- A property holds at every instant exactly when each program is started under the
condition, if a program started under it keeps the invariant behind the property and a
program started outside it loses the property. -/
theorem forEach_always_iff (hP : ∀ s, I s → P s) (hstep : ∀ s c, I s → C s c → I (f c s).1)
    (hfail : ∀ s c, I s → ¬ C s c → ¬ P (f c s).1) (cs : List γ) (s : σ) (h : I s) :
    (∀ before, before <+: cs → P (forEach f before s).1) ↔
      ∀ before c, before ++ [c] <+: cs → ∀ s', forEach f before s = (s', some ()) → C s' c := by
  have hiff := Runs.holds_throughout_iff (I := fun r : σ × Option Unit => I r.1)
    (P := fun r => P r.1) (C := fun r c => r.2 = some () → C r.1 c) (fun _ _ => True) (next f)
    (fun r hr => hP r.1 hr) ?_ ?_ cs (s, some ()) h fun _ _ _ => trivial
  · simpa only [forEach_returned_iff, ← forEach_eq_run] using hiff
  · rintro ⟨s, _ | u⟩ c hr - hC
    · exact hr
    · exact hstep s c hr (hC rfl)
  · rintro ⟨s, _ | u⟩ c hr - hC
    · exact absurd (fun hnone => nomatch hnone) hC
    · exact hfail s c hr fun hCs => hC fun _ => hCs

end InTurn

/-! ## Programs that throw -/

/-- A program that returns a value or throws. -/
abbrev Throws (ε σ : Type) : Type → Type := ExceptT ε (Program σ)

namespace Throws
variable {ε : Type} {m : Throws ε σ α} {f : α → Throws ε σ β}

/-- A program that does not throw. -/
def lift (m : Program σ α) : Throws ε σ α := fun s => ((m s).1, (m s).2.map .ok)

/-- Updates the state. -/
def update (f : σ → σ) : Throws ε σ Unit := fun s => (f s, some (.ok ()))

/-- Reads the state. -/
def read (f : σ → α) : Throws ε σ α := fun s => (s, some (.ok (f s)))

theorem pure_apply (a : α) (s : σ) : (pure a : Throws ε σ α) s = (s, some (.ok a)) := rfl

theorem throw_apply (e : ε) (s : σ) : (throw e : Throws ε σ α) s = (s, some (.error e)) := rfl

theorem bind_apply (s : σ) : (m >>= f) s = match m s with
    | (s', some (.ok a)) => f a s'
    | (s', some (.error e)) => (s', some (.error e))
    | (s', none) => (s', none) := by
  show andThen m (ExceptT.bindCont f) s = _
  unfold andThen
  rcases m s with ⟨s', _ | e | a⟩ <;> rfl

theorem bind_ok {s s' : σ} {a : α} (h : m s = (s', some (.ok a))) : (m >>= f) s = f a s' := by
  rw [bind_apply, h]

theorem bind_error {s s' : σ} {e : ε} (h : m s = (s', some (.error e))) :
    (m >>= f) s = (s', some (.error e)) := by
  rw [bind_apply, h]

theorem bind_inside {s s' : σ} (h : m s = (s', none)) : (m >>= f) s = (s', none) := by
  rw [bind_apply, h]

/-- A program that has returned normally from `m >>= f` has so returned from `m` first. -/
theorem bind_eq_ok {s s'' : σ} {b : β} (h : (m >>= f) s = (s'', some (.ok b))) :
    ∃ s' a, m s = (s', some (.ok a)) ∧ f a s' = (s'', some (.ok b)) := by
  rw [bind_apply] at h
  split at h
  · rename_i s' a hm
    exact ⟨s', a, hm, h⟩
  · cases h
  · cases h

theorem read_eq_ok {g : σ → α} {s s' : σ} {a : α}
    (h : (read g : Throws ε σ α) s = (s', some (.ok a))) : s' = s ∧ g s = a := by
  cases h
  exact ⟨rfl, rfl⟩

theorem lift_eq_ok {m : Program σ α} {s s' : σ} {a : α}
    (h : (lift m : Throws ε σ α) s = (s', some (.ok a))) : m s = (s', some a) := by
  unfold lift at h
  rcases hm : m s with ⟨s'', _ | b⟩
  · rw [hm] at h
    cases h
  · rw [hm] at h
    cases h
    rfl

section Rules
variable {P I : σ → Prop} {Q : Except ε α → σ → Prop} {R : Except ε β → σ → Prop}

/-- What is thrown ends the program. -/
theorem triple_bind (hm : Triple P m Q I) (hok : ∀ a, Triple (Q (.ok a)) (f a) R I)
    (herror : ∀ e s, Q (.error e) s → R (.error e) s) : Triple P (m >>= f : Throws ε σ β) R I := by
  intro s hs
  have h := hm s hs
  rcases hr : m s with ⟨s', _ | e | a⟩
  · rw [hr] at h
    rw [bind_inside hr]
    exact h
  · rw [hr] at h
    rw [bind_error hr]
    exact herror e s' h
  · rw [hr] at h
    rw [bind_ok hr]
    exact hok a s' h

theorem triple_pure {a : α} (h : ∀ s, P s → Q (.ok a) s) :
    Triple P (pure a : Throws ε σ α) Q I := h

theorem triple_throw {e : ε} (h : ∀ s, P s → Q (.error e) s) :
    Triple P (throw e : Throws ε σ α) Q I := h

theorem triple_update {g : σ → σ} {Q : Except ε Unit → σ → Prop}
    (h : ∀ s, P s → Q (.ok ()) (g s)) : Triple P (update g : Throws ε σ Unit) Q I := h

theorem triple_read {g : σ → α} (h : ∀ s, P s → Q (.ok (g s)) s) :
    Triple P (read g : Throws ε σ α) Q I := h

/-- What has been read is what is there. -/
theorem triple_read_bind {g : σ → α} (h : ∀ a, Triple (fun s => P s ∧ g s = a) (f a) R I) :
    Triple P (read g >>= f : Throws ε σ β) R I := by
  intro s hs
  have hread : (read g : Throws ε σ α) s = (s, some (.ok (g s))) := rfl
  rw [bind_ok hread]
  exact h (g s) s ⟨hs, rfl⟩

theorem triple_update_bind {g : σ → σ} {f : Unit → Throws ε σ β} {M : σ → Prop}
    (hg : ∀ s, P s → M (g s)) (h : Triple M (f ()) R I) :
    Triple P (update g >>= f : Throws ε σ β) R I := by
  intro s hs
  have hupdate : (update g : Throws ε σ Unit) s = (g s, some (.ok ())) := rfl
  rw [bind_ok hupdate]
  exact h (g s) (hg s hs)

theorem triple_lift {m : Program σ α} (h : Triple P m (fun a => Q (.ok a)) I) :
    Triple P (lift m : Throws ε σ α) Q I := by
  intro s hs
  have hm := h s hs
  unfold lift
  rcases hr : m s with ⟨s', _ | a⟩
  · rw [hr] at hm
    exact hm
  · rw [hr] at hm
    exact hm

theorem keeps_bind (hm : Keeps I m) (hf : ∀ a, Keeps I (f a)) :
    Keeps I (m >>= f : Throws ε σ β) :=
  triple_bind hm hf fun _ _ hs => hs

theorem keeps_pure (a : α) : Keeps I (pure a : Throws ε σ α) := triple_pure fun _ hs => hs

theorem keeps_throw (e : ε) : Keeps I (throw e : Throws ε σ α) := triple_throw fun _ hs => hs

theorem keeps_read (g : σ → α) : Keeps I (read g : Throws ε σ α) := triple_read fun _ hs => hs

theorem keeps_update {g : σ → σ} (h : ∀ s, I s → I (g s)) : Keeps I (update g : Throws ε σ Unit) :=
  triple_update h

theorem keeps_lift {m : Program σ α} (h : Keeps I m) : Keeps I (lift m : Throws ε σ α) :=
  triple_lift h

end Rules
end Throws

end Program

end Chttpc
