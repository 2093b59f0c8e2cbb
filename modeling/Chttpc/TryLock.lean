import Chttpc.Program
import Mathlib.Logic.Function.Basic

/-!
# Calls guarded by a lock that is tried once

Threads share a state with a lock in it.  A call tries to take the lock, and is refused if it is
taken.  A call that gets the lock goes on in steps (`Code`), none of which gives the lock back,
and other threads may move in between; at the end it gives the lock back, or not, and what it
answers may be read behind that (`Exit`).  A part of the state belongs to the thread that moves
(`own`, `lend`): a call that is refused changes no other part.

Whatever the order in which the threads move, the calls that get the lock are calls in turn, in
the order in which they get it (`Serial`): when no thread is inside a call, the state is where
these calls lead one after another, and when one is, the rest of its call leads there.  The
lock keeps the threads apart, although a call that is refused is not made later.
-/

namespace Chttpc.TryLock
open Program

/-! ## Programs in steps -/

/-- A program in steps that keep `I`, as far as it has not been run. -/
inductive Code {σ : Type} (I : σ → Prop) (α : Type) : Type 1
  | ret (a : α)
  | act {β : Type} (p : Program σ β) (h : Keeps I p) (k : β → Code I α)

section Code
variable {σ α β : Type} {I : σ → Prop}

namespace Code

/-- All the steps, without another thread in between. -/
def denote : Code I α → Program σ α
  | ret a => pure a
  | act p _ k => p >>= fun b => (k b).denote

def andThen : Code I α → (α → Code I β) → Code I β
  | ret a, f => f a
  | act p h k, f => act p h fun b => (k b).andThen f

/-- Whatever the steps answer, the code ends with a value of the kind. -/
def Ends (Q : α → Prop) : Code I α → Prop
  | ret a => Q a
  | act _ _ k => ∀ b, (k b).Ends Q

theorem denote_andThen (code : Code I α) (f : α → Code I β) :
    (code.andThen f).denote = code.denote >>= fun a => (f a).denote := by
  induction code with
  | ret a => rfl
  | act p h k ih =>
    rw [andThen, denote, denote, bind_bind]
    exact congrArg (p >>= ·) (funext ih)

theorem Ends.imp {Q R : α → Prop} (h : ∀ a, Q a → R a) {code : Code I α} (hends : code.Ends Q) :
    code.Ends R := by
  induction code with
  | ret a => exact h a hends
  | act p hp k ih => exact fun b => ih b (hends b)

theorem ends_andThen {Q : β → Prop} (code : Code I α) {f : α → Code I β}
    (h : ∀ a, (f a).Ends Q) : (code.andThen f).Ends Q := by
  induction code with
  | ret a => exact h a
  | act p hp k ih => exact ih

end Code

/-- The program, cut into steps. -/
structure Cut (I : σ → Prop) (p : Program σ α) : Type 1 where
  code : Code I α
  denotes : code.denote = p

namespace Cut

def return_ (a : α) : Cut I (pure a : Program σ α) := ⟨.ret a, rfl⟩

/-- A single step. -/
def step {p : Program σ α} (h : Keeps I p) : Cut I p := ⟨.act p h .ret, bind_return p⟩

def bind {p : Program σ α} {f : α → Program σ β} (first : Cut I p) (rest : ∀ a, Cut I (f a)) :
    Cut I (p >>= f) :=
  ⟨first.code.andThen fun a => (rest a).code, by
    rw [Code.denote_andThen, first.denotes]
    exact congrArg (p >>= ·) (funext fun a => (rest a).denotes)⟩

def ite {c : Prop} [Decidable c] {p q : Program σ α} (yes : Cut I p) (no : Cut I q) :
    Cut I (if c then p else q) :=
  if h : c then ⟨yes.code, by rw [if_pos h, yes.denotes]⟩
  else ⟨no.code, by rw [if_neg h, no.denotes]⟩

def congr {p q : Program σ α} (cut : Cut I p) (h : p = q) : Cut I q :=
  ⟨cut.code, cut.denotes.trans h⟩

end Cut
end Code

/-! ## The end of a call -/

/-- How a call ends that has the lock: it keeps it, or it gives it back and reads its answer. -/
inductive Exit (σ α : Type)
  | keep (a : α)
  | release (answer : σ → α)

section Exit
variable {σ α β : Type} {I : σ → Prop}

namespace Exit

/-- The last step, if `release` is what gives the lock back. -/
def leave (release : σ → σ) : Exit σ α → Program σ α
  | .keep a => pure a
  | .release answer => do
      Program.update release
      Program.read answer

/-- The answer is the same wherever it is read. -/
def Settled : Exit σ α → Prop
  | .keep _ => True
  | .release answer => ∀ s s', answer s = answer s'

end Exit

/-- The program, which ends as a call does that has the lock, cut into steps. -/
structure Leads (I : σ → Prop) (release : σ → σ) (Q : Exit σ α → Prop) (p : Program σ α) :
    Type 1 where
  code : Code I (Exit σ α)
  denotes : code.denote >>= Exit.leave release = p
  ends : code.Ends Q

namespace Leads
variable {release : σ → σ} {Q : Exit σ α → Prop}

def exit (e : Exit σ α) (h : Q e) : Leads I release Q (e.leave release) := ⟨.ret e, rfl, h⟩

def bind {p : Program σ β} {f : β → Program σ α} (first : Cut I p)
    (rest : ∀ b, Leads I release Q (f b)) : Leads I release Q (p >>= f) where
  code := first.code.andThen fun b => (rest b).code
  denotes := by
    rw [Code.denote_andThen, bind_bind, first.denotes]
    exact congrArg (p >>= ·) (funext fun b => (rest b).denotes)
  ends := Code.ends_andThen _ fun b => (rest b).ends

def ite {c : Prop} [Decidable c] {p q : Program σ α} (yes : Leads I release Q p)
    (no : Leads I release Q q) : Leads I release Q (if c then p else q) :=
  if h : c then ⟨yes.code, by rw [if_pos h, yes.denotes], yes.ends⟩
  else ⟨no.code, by rw [if_neg h, no.denotes], no.ends⟩

end Leads
end Exit

/-! ## The lock -/

/-- A state with a lock, and the calls it guards. -/
structure Guarded (σ ε γ α : Type) where
  taken : σ → Bool
  /-- The part of the state that belongs to the thread that moves. -/
  own : σ → ε
  lend : σ → ε → σ
  /-- Tries to take the lock; the answer says whether it has got it. -/
  acquire : Program σ Bool
  release : σ → σ
  /-- What a call answers that is refused, and its own part then. -/
  failure : γ → α
  refusal : ε
  /-- A call, behind the lock. -/
  body : γ → Code (fun s => taken s = true) (Exit σ α)
  /-- The calls whose answer is settled when they give the lock back. -/
  settled : γ → Prop
  lend_own : ∀ s, lend s (own s) = s
  lend_lend : ∀ s e e', lend (lend s e) e' = lend s e'
  own_lend : ∀ s e, own (lend s e) = e
  taken_lend : ∀ s e, taken (lend s e) = taken s
  acquire_lend : ∀ s e, acquire (lend s e) = acquire s
  acquire_free : ∀ s, taken s = false → ∃ s', acquire s = (s', some true) ∧ taken s' = true
  acquire_taken : ∀ s, taken s = true → acquire s = (lend s refusal, some false)
  ends_settled : ∀ c, settled c → (body c).Ends Exit.Settled

namespace Guarded
variable {σ ε γ α ι : Type} (G : Guarded σ ε γ α)

/-- Code that has the lock. -/
abbrev Held : Type 1 := Code (fun s => G.taken s = true) (Exit σ α)

/-- The rest of a call, without another thread in between. -/
def rest (code : G.Held) : Program σ α := code.denote >>= Exit.leave G.release

/-- A call, without another thread in between. -/
def call (c : γ) : Program σ α := do
  let got ← G.acquire
  if got then G.rest (G.body c) else pure (G.failure c)

/-! ## Threads -/

/-- Where a thread is: outside, inside a call, inside a step of it that does not come back, or
on its way out, with the lock given back. -/
inductive Thread : Type 1
  | idle
  | inside (c : γ) (code : G.Held)
  | away (c : γ)
  | leaving (c : γ) (answer : σ → α)

/-- The thread has the lock. -/
def Thread.Inside {G : Guarded σ ε γ α} : G.Thread → Prop
  | .inside .. | .away _ => True
  | .idle | .leaving .. => False

/-- What a call has answered, and the own part of its thread then. -/
structure Answer (ε γ α : Type) where
  call : γ
  value : α
  own : ε

/-- The shared state and the threads, with a ledger: the calls that have got the lock, and what
has been answered, in their order. -/
structure Config (ι : Type) : Type 1 where
  shared : σ
  own : ι → ε
  thread : ι → G.Thread
  granted : List γ
  answers : List (Answer ε γ α)

/-- A thread makes a call, or goes on. -/
inductive Move (ι γ : Type)
  | call (i : ι) (c : γ)
  | go (i : ι)

variable {G} [DecidableEq ι]

namespace Config

/-- The state, as the thread sees it. -/
def view (x : G.Config ι) (i : ι) : σ := G.lend x.shared (x.own i)

/-- The thread has moved. -/
def moved (x : G.Config ι) (i : ι) (s : σ) (thread : G.Thread) : G.Config ι :=
  { x with
    shared := s, own := Function.update x.own i (G.own s)
    thread := Function.update x.thread i thread }

def answered (x : G.Config ι) (i : ι) (c : γ) (a : α) : G.Config ι :=
  { x with answers := x.answers ++ [⟨c, a, x.own i⟩] }

end Config

variable (G)

/-- One move.  A thread that is inside a call makes no other, and none moves that is away. -/
def move (x : G.Config ι) : Move ι γ → G.Config ι
  | .call i c =>
      match x.thread i with
      | .idle =>
          match G.acquire (x.view i) with
          | (s, some true) => { x.moved i s (.inside c (G.body c)) with granted := x.granted ++ [c] }
          | (s, some false) => (x.moved i s .idle).answered i c (G.failure c)
          | (s, none) => x.moved i s (.away c)
      | _ => x
  | .go i =>
      match x.thread i with
      | .inside c (.act p _ k) =>
          match p (x.view i) with
          | (s, some b) => x.moved i s (.inside c (k b))
          | (s, none) => x.moved i s (.away c)
      | .inside c (.ret (.release answer)) =>
          x.moved i (G.release (x.view i)) (.leaving c answer)
      | .inside c (.ret (.keep a)) => (x.moved i (x.view i) .idle).answered i c a
      | .leaving c answer => (x.moved i (x.view i) .idle).answered i c (answer (x.view i))
      | .idle | .away _ => x

/-- All threads outside. -/
def start (s : σ) (own : ι → ε) : G.Config ι := ⟨s, own, fun _ => .idle, [], []⟩

/-! ## The calls in turn -/

/-- The states differ at most in what belongs to a thread. -/
def Same (s s' : σ) : Prop := ∀ e, G.lend s e = G.lend s' e

/-- The call is refused: its own thread gets to know, and nothing else has changed. -/
structure Refused (i : ι) (c : γ) (x y : G.Config ι) : Prop where
  shared : G.Same y.shared x.shared
  own : y.own = Function.update x.own i G.refusal
  thread : y.thread = x.thread
  granted : y.granted = x.granted
  answers : y.answers = x.answers ++ [⟨c, G.failure c, G.refusal⟩]

/-- The thread is inside the call, and what is left of it ends as given when nobody else moves. -/
def Going (c : γ) (result : σ × Option α) (view : σ) : G.Thread → Prop
  | .inside c' code => c' = c ∧ G.rest code view = result ∧ (G.settled c → code.Ends Exit.Settled)
  | .away c' => c' = c ∧ result = (view, none)
  | .idle | .leaving .. => False

/-- The calls that have got the lock are calls in turn: no thread is inside a call, or one is
inside the last of them. -/
def Now (s₀ : σ) (x : G.Config ι) : Prop :=
  (∃ s, (∀ i, ¬ (x.thread i).Inside) ∧ Program.forEach G.call x.granted s₀ = (s, some ()) ∧
    G.Same x.shared s) ∨
  ∃ i c before s, x.granted = before ++ [c] ∧ Program.forEach G.call before s₀ = (s, some ()) ∧
    (∀ j, j ≠ i → ¬ (x.thread j).Inside) ∧ G.taken x.shared = true ∧
    G.Going c (G.call c s) (x.view i) (x.thread i)

/-- The call is one of those, and what it has left and answered is what it does in turn; the
answer may be another one if it is not settled when the call gives the lock back. -/
def InTurn (s₀ : σ) (granted : List γ) (c : γ) (value : α) (own : ε) : Prop :=
  ∃ before s s' a, before ++ [c] <+: granted ∧ Program.forEach G.call before s₀ = (s, some ()) ∧
    G.call c s = (s', some a) ∧ own = G.own s' ∧ (G.settled c → value = a)

/-- **The invariant.** -/
structure Serial (s₀ : σ) (x : G.Config ι) : Prop where
  now : G.Now s₀ x
  leaving : ∀ i c answer, x.thread i = .leaving c answer →
    ∀ s, G.InTurn s₀ x.granted c (answer s) (x.own i)
  answers : ∀ answer ∈ x.answers,
    answer.value = G.failure answer.call ∧ answer.own = G.refusal ∨
      G.InTurn s₀ x.granted answer.call answer.value answer.own

section Moved
variable {G} (x : G.Config ι) (i : ι) (s : σ) (thread : G.Thread)

@[simp] theorem thread_moved_self : (x.moved i s thread).thread i = thread :=
  Function.update_self ..

theorem thread_moved_of_ne {j : ι} (h : j ≠ i) : (x.moved i s thread).thread j = x.thread j :=
  Function.update_of_ne h ..

@[simp] theorem own_moved_self : (x.moved i s thread).own i = G.own s := Function.update_self ..

theorem own_moved_of_ne {j : ι} (h : j ≠ i) : (x.moved i s thread).own j = x.own j :=
  Function.update_of_ne h ..

@[simp] theorem view_moved_self : (x.moved i s thread).view i = s := by
  rw [Config.view, own_moved_self]
  exact G.lend_own s

omit [DecidableEq ι] in
@[simp] theorem taken_view : G.taken (x.view i) = G.taken x.shared := G.taken_lend _ _

omit [DecidableEq ι] in
theorem same_view : G.Same (x.view i) x.shared := fun e => G.lend_lend x.shared (x.own i) e

end Moved

variable {G} {x : G.Config ι} {i : ι} {s₀ s : σ} {c : γ} {thread : G.Thread}

theorem InTurn.mono {granted granted' : List γ} {value : α} {own : ε}
    (h : G.InTurn s₀ granted c value own) (hpre : granted <+: granted') :
    G.InTurn s₀ granted' c value own := by
  obtain ⟨before, s, s', a, hbefore, hrest⟩ := h
  exact ⟨before, s, s', a, hbefore.trans hpre, hrest⟩

theorem acquire_of_same {s s' : σ} (h : G.Same s s') : G.acquire s = G.acquire s' := by
  rw [← G.acquire_lend s (G.own s), h (G.own s), G.acquire_lend]

theorem taken_of_same {s s' : σ} (h : G.Same s s') : G.taken s = G.taken s' := by
  rw [← G.taken_lend s (G.own s), h (G.own s), G.taken_lend]

omit [DecidableEq ι] in
theorem Going.inside {result : σ × Option α} {view : σ} (h : G.Going c result view thread) :
    thread.Inside := by
  cases thread with
  | inside | away => trivial
  | idle | leaving => exact h

/-- A call that finds the lock free gets it. -/
theorem move_call_free (hi : x.thread i = .idle) (hfree : G.taken x.shared = false) (c : γ) :
    ∃ s, G.acquire (x.view i) = (s, some true) ∧ G.taken s = true ∧
      G.move x (.call i c) =
        { x.moved i s (.inside c (G.body c)) with granted := x.granted ++ [c] } := by
  obtain ⟨s, hacquire, htaken⟩ := G.acquire_free (x.view i) ((taken_view x i).trans hfree)
  refine ⟨s, hacquire, htaken, ?_⟩
  rw [move, hi]
  dsimp only
  rw [hacquire]

/-- A call that finds the lock taken is refused. -/
theorem move_call_taken (hi : x.thread i = .idle) (htaken : G.taken x.shared = true) (c : γ) :
    G.move x (.call i c) =
      (x.moved i (G.lend (x.view i) G.refusal) .idle).answered i c (G.failure c) := by
  rw [move, hi]
  dsimp only
  rw [G.acquire_taken _ ((taken_view x i).trans htaken)]

theorem refused_of_taken (hi : x.thread i = .idle) (htaken : G.taken x.shared = true) (c : γ) :
    G.Refused i c x (G.move x (.call i c)) := by
  rw [move_call_taken hi htaken]
  refine ⟨fun e => (G.lend_lend _ _ e).trans (same_view x i e), ?_, ?_, rfl, ?_⟩
  · exact congrArg (Function.update x.own i) (G.own_lend _ _)
  · show Function.update x.thread i .idle = x.thread
    rw [← hi, Function.update_eq_self]
  · show x.answers ++ [⟨c, G.failure c, (x.moved i (G.lend (x.view i) G.refusal) .idle).own i⟩] = _
    rw [own_moved_self, G.own_lend]

/-- A thread that is outside moves, and stays outside. -/
theorem Now.aside (h : G.Now s₀ x) (hi : ¬ (x.thread i).Inside) (hthread : ¬ thread.Inside)
    (hsame : G.Same s x.shared) : G.Now s₀ (x.moved i s thread) := by
  have hout : ∀ j, ¬ (x.thread j).Inside → ¬ ((x.moved i s thread).thread j).Inside := by
    intro j hj
    by_cases hij : j = i
    · subst hij
      rwa [thread_moved_self]
    · rwa [thread_moved_of_ne _ _ _ _ hij]
  rcases h with ⟨t, hnone, hrun, ht⟩ | ⟨k, c, before, t, hgranted, hrun, hothers, htaken, hgoing⟩
  · exact Or.inl ⟨t, fun j => hout j (hnone j), hrun, fun e => (hsame e).trans (ht e)⟩
  · have hki : k ≠ i := by
      rintro rfl
      exact hi hgoing.inside
    have hview : (x.moved i s thread).view k = x.view k := by
      rw [Config.view, own_moved_of_ne _ _ _ _ hki]
      exact hsame _
    refine Or.inr ⟨k, c, before, t, hgranted, hrun, fun j hj => hout j (hothers j hj), ?_, ?_⟩
    · exact (taken_of_same hsame).trans htaken
    · rw [hview, thread_moved_of_ne _ _ _ _ hki]
      exact hgoing

/-- The thread that has the lock, if one has. -/
theorem Now.going (h : G.Now s₀ x) (hi : (x.thread i).Inside) :
    ∃ c before s, x.granted = before ++ [c] ∧ Program.forEach G.call before s₀ = (s, some ()) ∧
      (∀ j, j ≠ i → ¬ (x.thread j).Inside) ∧ G.taken x.shared = true ∧
      G.Going c (G.call c s) (x.view i) (x.thread i) := by
  rcases h with ⟨t, hnone, -⟩ | ⟨k, c, before, t, hgranted, hrun, hothers, htaken, hgoing⟩
  · exact absurd hi (hnone i)
  · by_cases hik : i = k
    · subst hik
      exact ⟨c, before, t, hgranted, hrun, hothers, htaken, hgoing⟩
    · exact absurd hi (hothers i hik)

/-! ## Every move keeps the order -/

/-- What remains of the invariant when a thread has moved. -/
theorem Serial.moved (h : G.Serial s₀ x) (i : ι) (s : σ) (thread : G.Thread) {granted : List γ}
    (hpre : x.granted <+: granted)
    (hnow : G.Now s₀ { x.moved i s thread with granted })
    (hleaving : ∀ c answer, thread = .leaving c answer →
      ∀ s', G.InTurn s₀ granted c (answer s') (G.own s)) :
    G.Serial s₀ { x.moved i s thread with granted } where
  now := hnow
  leaving := by
    intro j c answer hj s'
    change (x.moved i s thread).thread j = _ at hj
    show G.InTurn s₀ granted c (answer s') ((x.moved i s thread).own j)
    by_cases hij : j = i
    · subst hij
      rw [thread_moved_self] at hj
      rw [own_moved_self]
      exact hleaving c answer hj s'
    · rw [thread_moved_of_ne _ _ _ _ hij] at hj
      rw [own_moved_of_ne _ _ _ _ hij]
      exact (h.leaving j c answer hj s').mono hpre
  answers := fun answer hanswer => (h.answers answer hanswer).imp_right (·.mono hpre)

omit [DecidableEq ι] in
theorem Serial.answered (h : G.Serial s₀ x) {value : α}
    (hvalue : value = G.failure c ∧ x.own i = G.refusal ∨
      G.InTurn s₀ x.granted c value (x.own i)) : G.Serial s₀ (x.answered i c value) where
  now := h.now
  leaving := h.leaving
  answers := by
    intro answer hanswer
    rcases List.mem_append.mp hanswer with hold | hnew
    · exact h.answers answer hold
    · rw [List.mem_singleton.mp hnew]
      exact hvalue

/-- A call gets the lock. -/
theorem Serial.enter (h : G.Serial s₀ x)
    (hfree : G.taken x.shared = false) {s : σ} (hacquire : G.acquire (x.view i) = (s, some true))
    (htaken : G.taken s = true) :
    G.Serial s₀ { x.moved i s (.inside c (G.body c)) with granted := x.granted ++ [c] } := by
  refine h.moved _ _ _ (List.prefix_append _ _) ?_ fun _ _ hthread => nomatch hthread
  rcases h.now with ⟨t, hnone, hrun, ht⟩ | ⟨k, c', before, t, -, -, -, hbusy, -⟩
  · refine Or.inr ⟨i, c, x.granted, t, rfl, hrun, fun j hj => ?_, htaken, ?_⟩
    · show ¬ ((x.moved i s (.inside c (G.body c))).thread j).Inside
      rw [thread_moved_of_ne _ _ _ _ hj]
      exact hnone j
    · show G.Going c (G.call c t) ((x.moved i s (.inside c (G.body c))).view i)
        ((x.moved i s (.inside c (G.body c))).thread i)
      rw [view_moved_self, thread_moved_self]
      refine ⟨rfl, ?_, G.ends_settled c⟩
      have hsame : G.acquire t = (s, some true) := by
        rw [← hacquire]
        exact acquire_of_same fun e => ((same_view x i e).trans (ht e)).symm
      rw [call, bind_some hsame]
      rfl
  · rw [hfree] at hbusy
    cases hbusy

/-- A call is refused. -/
theorem Serial.refuse (h : G.Serial s₀ x) (hi : ¬ (x.thread i).Inside) :
    G.Serial s₀ ((x.moved i (G.lend (x.view i) G.refusal) .idle).answered i c (G.failure c)) := by
  have hmoved := h.moved i (G.lend (x.view i) G.refusal) .idle
    (List.prefix_refl x.granted)
    (h.now.aside hi id fun e => (G.lend_lend _ _ e).trans (same_view x i e))
    fun _ _ hthread => nomatch hthread
  refine hmoved.answered (Or.inl ⟨rfl, ?_⟩)
  show (x.moved i (G.lend (x.view i) G.refusal) .idle).own i = G.refusal
  rw [own_moved_self, G.own_lend]

/-- A step of a call. -/
theorem Serial.act (h : G.Serial s₀ x) {β : Type} {p : Program σ β}
    {hp : Keeps (fun s => G.taken s = true) p} {k : β → G.Held}
    (hi : x.thread i = .inside c (.act p hp k)) :
    G.Serial s₀ (match p (x.view i) with
      | (s, some b) => x.moved i s (.inside c (k b))
      | (s, none) => x.moved i s (.away c)) := by
  obtain ⟨c', before, t, hgranted, hrun, hothers, htaken, hgoing⟩ :=
    h.now.going (i := i) (by rw [hi]; trivial)
  rw [hi] at hgoing
  obtain ⟨rfl, hrest, hends⟩ := hgoing
  have hkeeps : G.taken (p (x.view i)).1 = true :=
    keeps_iff.mp hp (x.view i) ((taken_view x i).trans htaken)
  have hnow {s : σ} {thread : G.Thread} (hs : G.taken s = true)
      (hthread : G.Going c (G.call c t) s thread) : G.Now s₀ (x.moved i s thread) := by
    refine Or.inr ⟨i, c, before, t, hgranted, hrun, fun j hj => ?_, hs, ?_⟩
    · rw [thread_moved_of_ne _ _ _ _ hj]
      exact hothers j hj
    · rwa [view_moved_self, thread_moved_self]
  have hbind : G.rest (.act p hp k) = p >>= fun b => G.rest (k b) := bind_bind ..
  rcases hstep : p (x.view i) with ⟨s, _ | b⟩
  · rw [hstep] at hkeeps
    rw [hbind, bind_none hstep] at hrest
    exact h.moved _ _ _ (List.prefix_refl x.granted) (hnow hkeeps ⟨rfl, hrest.symm⟩)
      fun _ _ hthread => nomatch hthread
  · rw [hstep] at hkeeps
    rw [hbind, bind_some hstep] at hrest
    exact h.moved _ _ _ (List.prefix_refl x.granted) (hnow hkeeps ⟨rfl, hrest, fun hc => hends hc b⟩)
      fun _ _ hthread => nomatch hthread

/-- The last step of a call, which leaves the state `s`. -/
theorem Serial.exit (h : G.Serial s₀ x) {exit : Exit σ α} (hi : x.thread i = .inside c (.ret exit))
    (thread : G.Thread) {a : α} (hleave : exit.leave G.release (x.view i) = (s, some a))
    (hthread : ¬ thread.Inside) :
    G.Now s₀ (x.moved i s thread) ∧ ∀ value, (G.settled c → value = a) →
      G.InTurn s₀ x.granted c value (G.own s) := by
  obtain ⟨c', before, t, hgranted, hrun, hothers, htaken, hgoing⟩ :=
    h.now.going (i := i) (by rw [hi]; trivial)
  rw [hi] at hgoing
  obtain ⟨rfl, hrest, hends⟩ := hgoing
  have hcall : G.call c t = (s, some a) := by
    rw [← hrest, ← hleave]
    rfl
  refine ⟨Or.inl ⟨s, fun j => ?_, ?_, fun e => rfl⟩, fun value hvalue => ?_⟩
  · by_cases hij : j = i
    · subst hij
      rwa [thread_moved_self]
    · rw [thread_moved_of_ne _ _ _ _ hij]
      exact hothers j hij
  · show Program.forEach G.call x.granted s₀ = _
    rw [hgranted, forEach_append hrun, forEach, bind_some hcall]
    rfl
  · exact ⟨before, t, s, a, hgranted ▸ List.prefix_refl _, hrun, hcall, rfl, hvalue⟩

/-- A call that ends with the lock. -/
theorem Serial.keep (h : G.Serial s₀ x) {a : α} (hi : x.thread i = .inside c (.ret (.keep a))) :
    G.Serial s₀ ((x.moved i (x.view i) .idle).answered i c a) := by
  obtain ⟨hnow, hanswer⟩ := h.exit hi .idle rfl id
  have hmoved := h.moved _ _ _ (List.prefix_refl x.granted) hnow fun _ _ hthread => nomatch hthread
  refine hmoved.answered (Or.inr ?_)
  show G.InTurn s₀ x.granted c a ((x.moved i (x.view i) .idle).own i)
  rw [own_moved_self]
  exact hanswer a fun _ => rfl

/-- A call that gives the lock back. -/
theorem Serial.release (h : G.Serial s₀ x) {answer : σ → α}
    (hi : x.thread i = .inside c (.ret (.release answer))) :
    G.Serial s₀ (x.moved i (G.release (x.view i)) (.leaving c answer)) := by
  obtain ⟨c', before, t, -, -, -, -, hgoing⟩ := h.now.going (i := i) (by rw [hi]; trivial)
  rw [hi] at hgoing
  obtain ⟨rfl, -, hends⟩ := hgoing
  obtain ⟨hnow, hanswer⟩ := h.exit hi (.leaving c answer) rfl id
  refine h.moved _ _ _ (List.prefix_refl x.granted) hnow fun c'' answer' hthread s' => ?_
  cases hthread
  exact hanswer _ fun hc => hends hc _ _

/-- A call that reads its answer behind the lock. -/
theorem Serial.leave (h : G.Serial s₀ x) {answer : σ → α} (hi : x.thread i = .leaving c answer) :
    G.Serial s₀ ((x.moved i (x.view i) .idle).answered i c (answer (x.view i))) := by
  have hout : ¬ (x.thread i).Inside := by rw [hi]; exact id
  have hmoved := h.moved i (x.view i) .idle (List.prefix_refl x.granted)
    (h.now.aside hout id (same_view x i)) fun _ _ hthread => nomatch hthread
  refine hmoved.answered (Or.inr ?_)
  show G.InTurn s₀ x.granted c _ ((x.moved i (x.view i) .idle).own i)
  rw [own_moved_self, Config.view, G.own_lend]
  exact h.leaving i c answer hi _

/-- **Every move keeps the invariant.** -/
theorem Serial.move (h : G.Serial s₀ x) (m : Move ι γ) : G.Serial s₀ (G.move x m) := by
  cases m with
  | call i c =>
    cases hi : x.thread i with
    | inside c' code => rwa [Guarded.move, hi]
    | away c' => rwa [Guarded.move, hi]
    | leaving c' answer => rwa [Guarded.move, hi]
    | idle =>
      cases hbusy : G.taken x.shared with
      | false =>
        obtain ⟨s, hacquire, htaken, hmove⟩ := move_call_free hi hbusy c
        rw [hmove]
        exact h.enter hbusy hacquire htaken
      | true =>
        rw [move_call_taken hi hbusy]
        exact h.refuse (by rw [hi]; exact id)
  | go i =>
    cases hi : x.thread i with
    | idle => rwa [Guarded.move, hi]
    | away c => rwa [Guarded.move, hi]
    | leaving c answer =>
      rw [Guarded.move, hi]
      exact h.leave hi
    | inside c code =>
      rw [Guarded.move, hi]
      cases code with
      | act p hp k => exact h.act hi
      | ret exit =>
        cases exit with
        | keep a => exact h.keep hi
        | release answer => exact h.release hi

/-- **The calls of a run are calls in turn.** -/
theorem Serial.run (s₀ : σ) (own : ι → ε) (moves : List (Move ι γ)) :
    G.Serial s₀ (Runs.run G.move (G.start s₀ own) moves) :=
  Runs.run_invariant G.move (I := G.Serial s₀) (fun _ m h (_ : True) => h.move m) moves
    (G.start s₀ own)
    { now := Or.inl ⟨s₀, fun _ => id, rfl, fun _ => rfl⟩
      leaving := fun _ _ _ hthread => nomatch hthread
      answers := fun _ hanswer => nomatch hanswer }
    fun _ _ => trivial

end Guarded
end Chttpc.TryLock
