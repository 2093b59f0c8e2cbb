import Mathlib.Logic.Function.Basic
import Chttpc.DoublyLinked
import Chttpc.Runs

/-!
# `CleanerRef`

The references of all native handles that have not been closed make up a doubly
linked list, which keeps them alive.  `close` takes its reference out of the list,
and disposes of the handle if it was there; a reference that has been taken out
points at itself, which is how a second `close` knows.

`add` and `remove` hold the lock of the class, so each is one step.  Disposing is
another one, behind it: a thread that has taken a reference out is about to dispose
of it, and any other thread may do something in between.  What a `create` does
before `add` concerns a reference nobody else has: its referent is still in use by
the caller, so the queue does not deliver it.  It is part of that step.

`clear()`, which drops the referent, has no part in any of this.
-/

namespace Chttpc
open DoublyLinked

/-- References and threads are numbered. -/
abbrev Ref := Nat

abbrev ThreadId := Nat

structure CleanerRef where
  next : Option Ref
  prev : Option Ref
  nativePtr : Int

/-- The references, and the static field `first`. -/
structure CleanerList where
  refs : Ref → CleanerRef
  first : Option Ref

namespace CleanerList
variable (cl r q : Ref) (v : Option Ref) (s : CleanerList)

def next (s : CleanerList) (r : Ref) : Option Ref := (s.refs r).next

def prev (s : CleanerList) (r : Ref) : Option Ref := (s.refs r).prev

def nativePtr (s : CleanerList) (r : Ref) : Int := (s.refs r).nativePtr

/-! ## The methods -/

/-- `r.next = v` -/
def setNext : CleanerList :=
  { s with refs := Function.update s.refs r { s.refs r with next := v } }

/-- `r.prev = v` -/
def setPrev : CleanerList :=
  { s with refs := Function.update s.refs r { s.refs r with prev := v } }

@[simp] theorem next_setNext :
    (s.setNext r v).next q = if q = r then v else s.next q := by
  by_cases h : q = r
  · subst h
    simp [setNext, next]
  · simp [setNext, next, h]

@[simp] theorem prev_setNext : (s.setNext r v).prev q = s.prev q := by
  by_cases h : q = r
  · subst h
    simp [setNext, prev]
  · simp [setNext, prev, h]

@[simp] theorem nativePtr_setNext : (s.setNext r v).nativePtr q = s.nativePtr q := by
  by_cases h : q = r
  · subst h
    simp [setNext, nativePtr]
  · simp [setNext, nativePtr, h]

@[simp] theorem first_setNext : (s.setNext r v).first = s.first := rfl

@[simp] theorem next_setPrev : (s.setPrev r v).next q = s.next q := by
  by_cases h : q = r
  · subst h
    simp [setPrev, next]
  · simp [setPrev, next, h]

@[simp] theorem prev_setPrev :
    (s.setPrev r v).prev q = if q = r then v else s.prev q := by
  by_cases h : q = r
  · subst h
    simp [setPrev, prev]
  · simp [setPrev, prev, h]

@[simp] theorem nativePtr_setPrev : (s.setPrev r v).nativePtr q = s.nativePtr q := by
  by_cases h : q = r
  · subst h
    simp [setPrev, nativePtr]
  · simp [setPrev, nativePtr, h]

@[simp] theorem first_setPrev : (s.setPrev r v).first = s.first := rfl

/-- The links of `add`. -/
def addLinks : CleanerList :=
  match s.first with
  | some first => (s.setNext cl (some first)).setPrev first (some cl)
  | none => s

def add : CleanerList := { s.addLinks cl with first := some cl }

/-- `if (first == cl)`: the head of the list moves on. -/
def dropFirst : CleanerList :=
  if s.first = some cl then
    { s with first := if s.next cl ≠ none then s.next cl else s.prev cl }
  else s

/-- `if (cl.next != null) cl.next.prev = cl.prev` -/
def dropPrev : CleanerList :=
  match s.next cl with
  | some n => s.setPrev n (s.prev cl)
  | none => s

/-- `if (cl.prev != null) cl.prev.next = cl.next` -/
def dropNext : CleanerList :=
  match s.prev cl with
  | some p => s.setNext p (s.next cl)
  | none => s

/-- The cleaner is pointed to itself. -/
def mark : CleanerList := (s.setNext cl (some cl)).setPrev cl (some cl)

def remove : CleanerList × Bool :=
  if s.next cl = some cl then (s, false)
  else ((((s.dropFirst cl).dropPrev cl).dropNext cl).mark cl, true)

/-! ## What the methods do to the links -/

section Links
variable {cl r q : Ref} {s : CleanerList}

theorem next_add (hcl : s.next cl = none) (q : Ref) :
    (s.add cl).next q = if q = cl then s.first else s.next q := by
  show (s.addLinks cl).next q = _
  unfold addLinks
  cases hfirst : s.first with
  | some first => simp
  | none =>
    by_cases hq : q = cl
    · rw [if_pos hq, hq]
      exact hcl
    · rw [if_neg hq]

theorem prev_add (q : Ref) :
    (s.add cl).prev q = if s.first = some q then some cl else s.prev q := by
  show (s.addLinks cl).prev q = _
  unfold addLinks
  cases hfirst : s.first with
  | some first => simp [eq_comm]
  | none => simp

theorem nativePtr_add (q : Ref) : (s.add cl).nativePtr q = s.nativePtr q := by
  show (s.addLinks cl).nativePtr q = _
  unfold addLinks
  cases s.first with
  | some first => simp
  | none => rfl

theorem next_dropFirst (q : Ref) : (s.dropFirst cl).next q = s.next q := by
  unfold dropFirst
  split <;> rfl

theorem prev_dropFirst (q : Ref) : (s.dropFirst cl).prev q = s.prev q := by
  unfold dropFirst
  split <;> rfl

theorem next_dropPrev (q : Ref) : (s.dropPrev cl).next q = s.next q := by
  unfold dropPrev
  split <;> simp

theorem prev_dropPrev (q : Ref) :
    (s.dropPrev cl).prev q = if s.next cl = some q then s.prev cl else s.prev q := by
  unfold dropPrev
  cases hn : s.next cl with
  | some n => simp [eq_comm]
  | none => simp

theorem next_dropNext (q : Ref) :
    (s.dropNext cl).next q = if s.prev cl = some q then s.next cl else s.next q := by
  unfold dropNext
  cases hp : s.prev cl with
  | some p => simp [eq_comm]
  | none => simp

theorem prev_dropNext (q : Ref) : (s.dropNext cl).prev q = s.prev q := by
  unfold dropNext
  split <;> simp

/-- **Removing a node that does not point at itself** makes it point at itself and its
neighbours at each other. -/
theorem next_remove (hnext : s.next cl ≠ some cl) (q : Ref) :
    (s.remove cl).1.next q =
      if q = cl then some cl else if s.prev cl = some q then s.next cl else s.next q := by
  rw [remove, if_neg hnext]
  simp only [mark, next_setPrev, next_setNext, next_dropNext, next_dropPrev, prev_dropPrev,
    next_dropFirst, prev_dropFirst, if_neg hnext]

theorem prev_remove (hnext : s.next cl ≠ some cl) (q : Ref) :
    (s.remove cl).1.prev q =
      if q = cl then some cl else if s.next cl = some q then s.prev cl else s.prev q := by
  rw [remove, if_neg hnext]
  simp only [mark, prev_setPrev, prev_setNext, prev_dropNext, prev_dropPrev, next_dropFirst,
    prev_dropFirst]

theorem nativePtr_remove (q : Ref) : (s.remove cl).1.nativePtr q = s.nativePtr q := by
  have hnext : ∀ s : CleanerList, (s.dropNext cl).nativePtr q = s.nativePtr q := by
    intro s
    unfold dropNext
    split <;> simp
  have hprev : ∀ s : CleanerList, (s.dropPrev cl).nativePtr q = s.nativePtr q := by
    intro s
    unfold dropPrev
    split <;> simp
  have hfirst : (s.dropFirst cl).nativePtr q = s.nativePtr q := by
    unfold dropFirst
    split <;> rfl
  unfold remove
  split
  · rfl
  · simp [mark, hnext, hprev, hfirst]

theorem first_remove (hnext : s.next cl ≠ some cl) :
    (s.remove cl).1.first =
      if s.first = some cl then (if s.next cl ≠ none then s.next cl else s.prev cl) else s.first := by
  have hdropNext : ∀ s : CleanerList, (s.dropNext cl).first = s.first := by
    intro s
    unfold dropNext
    split <;> rfl
  have hdropPrev : ∀ s : CleanerList, (s.dropPrev cl).first = s.first := by
    intro s
    unfold dropPrev
    split <;> rfl
  rw [remove, if_neg hnext]
  show (((s.dropFirst cl).dropPrev cl).dropNext cl).first = _
  rw [hdropNext, hdropPrev, dropFirst]
  split <;> rfl

/-- **A removed node is taken out of the list**, wherever it is. -/
theorem linked_remove {before after : List Ref}
    (h : IsList s.next s.prev (before ++ cl :: after) s.first) :
    IsList (s.remove cl).1.next (s.remove cl).1.prev (before ++ after) (s.remove cl).1.first := by
  have hself : s.next cl ≠ some cl := h.next_ne_self (by simp)
  have hne : ∀ q ∈ before ++ after, q ≠ cl := fun q hq he => h.not_mem_others (he ▸ hq)
  refine h.unlink ?_ ?_ ?_
  · rw [first_remove hself]
    by_cases hfirst : s.first = some cl
    · rw [if_pos hfirst, if_pos hfirst]
      by_cases hlast : s.next cl = none
      · -- the only element: nothing is before it either
        rw [if_neg (not_not.mpr hlast), hlast, h.prev_first hfirst]
      · rw [if_pos hlast]
    · rw [if_neg hfirst, if_neg hfirst]
  · intro q hq
    rw [next_remove hself, if_neg (hne q hq)]
  · intro q hq
    rw [prev_remove hself, if_neg (hne q hq)]

/-- What is not in the list keeps its links. -/
theorem remove_outside {nodes : List Ref} (h : IsList s.next s.prev nodes s.first)
    (hcl : cl ∈ nodes) (hq : q ∉ nodes) :
    (s.remove cl).1.next q = s.next q ∧ (s.remove cl).1.prev q = s.prev q := by
  have hself := h.next_ne_self hcl
  have hne : q ≠ cl := fun he => hq (he ▸ hcl)
  constructor
  · rw [next_remove hself, if_neg hne, if_neg fun hp => hq (h.prev_mem hcl hp)]
  · rw [prev_remove hself, if_neg hne, if_neg fun hp => hq (h.next_mem hcl hp)]

end Links
end CleanerList

/-! ## Threads -/

/-- A call of `CurlHttp.nativeDispose`. -/
structure Disposal where
  thread : ThreadId
  ref : Ref
  nativePtr : Int
  deriving DecidableEq, Repr

/-- The class, and the threads that use it.  The last two fields are a ledger, which is
written and never read. -/
structure Cleaners where
  list : CleanerList
  /-- The references that have been made are those below. -/
  created : Nat
  /-- The reference that a thread has taken out of the list and is about to dispose of. -/
  disposing : ThreadId → Option Ref
  /-- The calls of `close`, in the order in which they have taken the lock. -/
  closes : List (ThreadId × Ref)
  disposals : List Disposal

namespace Cleaners

/-- What a thread does next: it makes a reference, it closes one, up to where the lock is
given back, or it disposes of the one it has taken out. -/
inductive Action
  | create (nativePtr : Int)
  | close (thread : ThreadId) (ref : Ref)
  | dispose (thread : ThreadId)

def start : Cleaners := ⟨⟨fun _ => ⟨none, none, 0⟩, none⟩, 0, fun _ => none, [], []⟩

/-- The constructor, for the next reference. -/
def construct (nativePtr : Int) (s : Cleaners) : CleanerList :=
  { s.list with refs := Function.update s.list.refs s.created ⟨none, none, nativePtr⟩ }

def create (nativePtr : Int) (s : Cleaners) : Cleaners :=
  { s with list := (s.construct nativePtr).add s.created, created := s.created + 1 }

def close (thread : ThreadId) (ref : Ref) (s : Cleaners) : Cleaners :=
  let (list, removed) := s.list.remove ref
  { s with
    list
    disposing := if removed then Function.update s.disposing thread (some ref) else s.disposing
    closes := s.closes ++ [(thread, ref)] }

def dispose (thread : ThreadId) (ref : Ref) (s : Cleaners) : Cleaners :=
  { s with
    disposing := Function.update s.disposing thread none
    disposals := s.disposals ++ [⟨thread, ref, s.list.nativePtr ref⟩] }

/-- One step.  A thread closes a reference that it has been given by `create`, or by the
queue, and when it is not inside another call. -/
def step (s : Cleaners) : Action → Option Cleaners
  | .create nativePtr => some (s.create nativePtr)
  | .close thread ref =>
      if ref < s.created ∧ s.disposing thread = none then some (s.close thread ref) else none
  | .dispose thread => (s.disposing thread).map fun ref => s.dispose thread ref

/-- The state after the actions, if each of them is possible. -/
def run (s : Cleaners) (actions : List Action) : Option Cleaners := actions.foldlM step s

/-- Some `close` of the reference has taken the lock. -/
def Closed (s : Cleaners) (r : Ref) : Prop := ∃ thread, (thread, r) ∈ s.closes

/-- The thread whose `close` of the reference was the first one. -/
def firstCloser (s : Cleaners) (r : Ref) : Option ThreadId :=
  (s.closes.find? fun call => call.2 = r).map (·.1)

/-- The calls of `nativeDispose` there should be for a reference: one, by the thread of the
first `close`, unless this thread has not come to it. -/
def expected (s : Cleaners) (r : Ref) : List Disposal :=
  match s.firstCloser r with
  | none => []
  | some thread =>
      if s.disposing thread = some r then [] else [⟨thread, r, s.list.nativePtr r⟩]

/-- The calls of `nativeDispose` for a reference. -/
def disposalsOf (s : Cleaners) (r : Ref) : List Disposal := s.disposals.filter (·.ref = r)

/-- The list is one of the references that have not been closed, the others point at
themselves, and each has been disposed of once by the thread that closed it first. -/
structure Sound (s : Cleaners) (nodes : List Ref) : Prop where
  linked : IsList s.list.next s.list.prev nodes s.list.first
  mem_iff : ∀ r, r ∈ nodes ↔ r < s.created ∧ ¬ s.Closed r
  marked : ∀ r, s.Closed r → r < s.created ∧ s.list.next r = some r ∧ s.list.prev r = some r
  pending : ∀ thread r, s.disposing thread = some r → s.firstCloser r = some thread
  disposed : ∀ r, s.disposalsOf r = s.expected r

section Steps
variable {s : Cleaners} {nodes : List Ref} {thread : ThreadId} {r : Ref}

theorem closed_iff (s : Cleaners) (r : Ref) : s.Closed r ↔ ∃ thread, s.firstCloser r = some thread := by
  unfold Closed firstCloser
  constructor
  · rintro ⟨thread, hmem⟩
    cases hfind : s.closes.find? fun call => call.2 = r with
    | none =>
      have hnot := List.find?_eq_none.mp hfind _ hmem
      simp at hnot
    | some call => exact ⟨call.1, rfl⟩
  · rintro ⟨thread, hfirst⟩
    obtain ⟨call, hfind, -⟩ := Option.map_eq_some_iff.mp hfirst
    have hcall : call.2 = r := by simpa using List.find?_some hfind
    exact ⟨call.1, hcall ▸ List.mem_of_find?_eq_some hfind⟩

theorem sound_start : Sound start [] where
  linked := IsList.empty _ _
  mem_iff := fun r => by simp [start]
  marked := by
    rintro r ⟨thread, hmem⟩
    simp [start] at hmem
  pending := by
    intro thread r h
    cases h
  disposed := fun _ => rfl

/-! The constructor writes the new reference alone. -/

theorem refs_construct {nativePtr : Int} (hr : r ≠ s.created) :
    (s.construct nativePtr).refs r = s.list.refs r := Function.update_of_ne hr _ _

theorem next_construct {nativePtr : Int} (hr : r ≠ s.created) :
    (s.construct nativePtr).next r = s.list.next r := by
  rw [CleanerList.next, refs_construct hr]
  rfl

theorem prev_construct {nativePtr : Int} (hr : r ≠ s.created) :
    (s.construct nativePtr).prev r = s.list.prev r := by
  rw [CleanerList.prev, refs_construct hr]
  rfl

theorem nativePtr_create {nativePtr : Int} (hr : r ≠ s.created) :
    (s.create nativePtr).list.nativePtr r = s.list.nativePtr r := by
  show ((s.construct nativePtr).add s.created).nativePtr r = _
  rw [CleanerList.nativePtr_add, CleanerList.nativePtr, refs_construct hr]
  rfl

theorem links_construct_new (nativePtr : Int) :
    (s.construct nativePtr).next s.created = none ∧
      (s.construct nativePtr).prev s.created = none := by
  have hfresh : (s.construct nativePtr).refs s.created = ⟨none, none, nativePtr⟩ :=
    Function.update_self _ _ _
  rw [CleanerList.next, CleanerList.prev, hfresh]
  exact ⟨rfl, rfl⟩

theorem linked_create (h : IsList s.list.next s.list.prev nodes s.list.first)
    (hnew : s.created ∉ nodes) (nativePtr : Int) :
    IsList (s.create nativePtr).list.next (s.create nativePtr).list.prev (s.created :: nodes)
      (some s.created) := by
  obtain ⟨hnext, hprev⟩ := links_construct_new (s := s) nativePtr
  have hne : ∀ q ∈ nodes, q ≠ s.created := fun q hq he => hnew (he ▸ hq)
  refine h.push hnew ?_ ?_ ?_ ?_
  · exact (CleanerList.next_add hnext _).trans (if_pos rfl)
  · show ((s.construct nativePtr).add s.created).prev s.created = none
    have hfirst : (s.construct nativePtr).first ≠ some s.created :=
      fun hq => hnew (List.mem_of_head? (h.head.symm.trans hq))
    rw [CleanerList.prev_add, if_neg hfirst, hprev]
  · intro q hq
    show ((s.construct nativePtr).add s.created).next q = s.list.next q
    rw [CleanerList.next_add hnext, if_neg (hne q hq), next_construct (hne q hq)]
  · intro q hq
    show ((s.construct nativePtr).add s.created).prev q = _
    rw [CleanerList.prev_add, prev_construct (hne q hq)]
    rfl

/-- What is not in the list keeps its links. -/
theorem create_outside (h : IsList s.list.next s.list.prev nodes s.list.first) (hr : r ∉ nodes)
    (hold : r ≠ s.created) (nativePtr : Int) :
    (s.create nativePtr).list.next r = s.list.next r ∧
      (s.create nativePtr).list.prev r = s.list.prev r := by
  constructor
  · show ((s.construct nativePtr).add s.created).next r = _
    rw [CleanerList.next_add (links_construct_new nativePtr).1, if_neg hold, next_construct hold]
  · show ((s.construct nativePtr).add s.created).prev r = _
    have hfirst : (s.construct nativePtr).first ≠ some r :=
      fun hq => hr (List.mem_of_head? (h.head.symm.trans hq))
    rw [CleanerList.prev_add, if_neg hfirst, prev_construct hold]

/-- **A new reference comes to the front of the list.** -/
theorem Sound.create (h : Sound s nodes) (nativePtr : Int) :
    Sound (s.create nativePtr) (s.created :: nodes) := by
  have hnew : s.created ∉ nodes := fun hmem => Nat.lt_irrefl _ ((h.mem_iff _).mp hmem).1
  refine ⟨linked_create h.linked hnew nativePtr, ?_, ?_, h.pending, ?_⟩
  · intro r
    show r ∈ s.created :: nodes ↔ r < s.created + 1 ∧ ¬ s.Closed r
    rw [List.mem_cons, h.mem_iff]
    constructor
    · rintro (rfl | ⟨hr, hopen⟩)
      · exact ⟨Nat.lt_succ_self _, fun hclosed => Nat.lt_irrefl _ (h.marked _ hclosed).1⟩
      · exact ⟨Nat.lt_succ_of_lt hr, hopen⟩
    · rintro ⟨hr, hopen⟩
      rcases Nat.lt_succ_iff_lt_or_eq.mp hr with hr | hr
      · exact .inr ⟨hr, hopen⟩
      · exact .inl hr
  · intro r hclosed
    have hclosed : s.Closed r := hclosed
    obtain ⟨hr, hself, hself'⟩ := h.marked r hclosed
    have hnot : r ∉ nodes := fun hmem => ((h.mem_iff r).mp hmem).2 hclosed
    obtain ⟨hnext, hprev⟩ := create_outside h.linked hnot (Nat.ne_of_lt hr) nativePtr
    exact ⟨Nat.lt_succ_of_lt hr, hnext.trans hself, hprev.trans hself'⟩
  · intro r
    rw [show (s.create nativePtr).disposalsOf r = s.disposalsOf r from rfl, h.disposed r]
    unfold expected
    rw [show (s.create nativePtr).firstCloser r = s.firstCloser r from rfl]
    cases hcloser : s.firstCloser r with
    | none => rfl
    | some thread =>
      have hr := (h.marked r ((closed_iff s r).mpr ⟨thread, hcloser⟩)).1
      dsimp only
      rw [nativePtr_create (Nat.ne_of_lt hr)]
      rfl

theorem firstCloser_close (s : Cleaners) (thread : ThreadId) (ref r : Ref) :
    (s.close thread ref).firstCloser r =
      (s.firstCloser r).or (if ref = r then some thread else none) := by
  unfold firstCloser close
  rw [List.find?_append]
  cases hfind : s.closes.find? fun call => call.2 = r with
  | some call => rfl
  | none =>
    by_cases hr : ref = r
    · simp [hr]
    · simp [hr]

/-- A reference that has been closed is left alone. -/
theorem Sound.close_again (h : Sound s nodes) (hclosed : s.Closed r) :
    Sound (s.close thread r) nodes := by
  obtain ⟨hr, hself, -⟩ := h.marked r hclosed
  have hremove : s.list.remove r = (s.list, false) := if_pos hself
  obtain ⟨closer, hcloser⟩ := (closed_iff s r).mp hclosed
  have hsame : ∀ q, (s.close thread r).firstCloser q = s.firstCloser q := by
    intro q
    rw [firstCloser_close]
    by_cases hq : r = q
    · rw [← hq, hcloser]
      rfl
    · rw [if_neg hq, Option.or_none]
  have hclosed' : ∀ q, (s.close thread r).Closed q ↔ s.Closed q := by
    intro q
    rw [closed_iff, closed_iff, hsame]
  have hlist : (s.close thread r).list = s.list := by rw [close, hremove]
  have hdisposing : (s.close thread r).disposing = s.disposing := by
    rw [close, hremove]
    rfl
  refine ⟨?_, ?_, ?_, ?_, ?_⟩
  · rw [hlist]
    exact h.linked
  · intro q
    rw [hclosed']
    exact h.mem_iff q
  · intro q
    rw [hclosed', hlist]
    exact h.marked q
  · intro t q
    rw [hdisposing, hsame]
    exact h.pending t q
  · intro q
    rw [show (s.close thread r).disposalsOf q = s.disposalsOf q from rfl, h.disposed q, expected,
      expected, hsame, hdisposing, hlist]

theorem closed_close_iff {q : Ref} : (s.close thread r).Closed q ↔ q = r ∨ s.Closed q := by
  unfold Closed close
  simp only [List.mem_append, List.mem_singleton, Prod.mk.injEq]
  constructor
  · rintro ⟨t, hmem | ⟨-, hq⟩⟩
    · exact .inr ⟨t, hmem⟩
    · exact .inl hq
  · rintro (hq | ⟨t, hmem⟩)
    · exact ⟨thread, .inr ⟨rfl, hq⟩⟩
    · exact ⟨t, .inl hmem⟩

theorem firstCloser_of_open (hopen : ¬ s.Closed r) : s.firstCloser r = none := by
  cases hcloser : s.firstCloser r with
  | none => rfl
  | some closer => exact absurd ((closed_iff s r).mpr ⟨closer, hcloser⟩) hopen

theorem firstCloser_close_of_ne {q : Ref} (hq : q ≠ r) :
    (s.close thread r).firstCloser q = s.firstCloser q := by
  rw [firstCloser_close, if_neg (Ne.symm hq), Option.or_none]

theorem firstCloser_close_of_open (hopen : ¬ s.Closed r) :
    (s.close thread r).firstCloser r = some thread := by
  rw [firstCloser_close, firstCloser_of_open hopen, if_pos rfl]
  rfl

theorem disposing_close (hself : s.list.next r ≠ some r) :
    (s.close thread r).disposing = Function.update s.disposing thread (some r) := by
  have hremoved : (s.list.remove r).2 = true := by
    rw [CleanerList.remove, if_neg hself]
  show (if (s.list.remove r).2 then _ else _) = _
  rw [hremoved]
  rfl

/-- The first `close` of a reference calls for no disposal before its own thread comes to it. -/
theorem expected_close (hopen : ¬ s.Closed r) (hself : s.list.next r ≠ some r)
    (hidle : s.disposing thread = none) (q : Ref) :
    (s.close thread r).expected q = s.expected q := by
  rw [expected, expected, disposing_close hself]
  by_cases hqr : q = r
  · subst hqr
    rw [firstCloser_of_open hopen, firstCloser_close_of_open hopen]
    simp
  · rw [firstCloser_close_of_ne hqr]
    cases hc : s.firstCloser q with
    | none => rfl
    | some t =>
      have hptr : (s.close thread r).list.nativePtr q = s.list.nativePtr q :=
        CleanerList.nativePtr_remove q
      dsimp only
      rw [hptr]
      by_cases ht : t = thread
      · subst ht
        have hother : ¬ some r = some q := by simpa using Ne.symm hqr
        rw [Function.update_self, hidle, if_neg hother, if_neg (by simp)]
      · rw [Function.update_of_ne ht]

/-- **The first `close` takes the reference out of the list**, wherever it is. -/
theorem Sound.close_first (h : Sound s nodes) (hr : r < s.created) (hopen : ¬ s.Closed r)
    (hidle : s.disposing thread = none) :
    ∃ before after, nodes = before ++ r :: after ∧ Sound (s.close thread r) (before ++ after) := by
  have hmem : r ∈ nodes := (h.mem_iff r).mpr ⟨hr, hopen⟩
  have hself := h.linked.next_ne_self hmem
  obtain ⟨before, after, rfl⟩ := List.append_of_mem hmem
  refine ⟨before, after, rfl, CleanerList.linked_remove h.linked, ?_, ?_, ?_, ?_⟩
  · intro q
    have hq := h.mem_iff q
    rw [List.mem_append, List.mem_cons] at hq
    rw [closed_close_iff, List.mem_append]
    by_cases hqr : q = r
    · subst hqr
      have hnot := h.linked.not_mem_others
      rw [List.mem_append] at hnot
      simp [hnot]
    · simp only [hqr, false_or] at hq ⊢
      exact hq
  · intro q hq
    by_cases hqr : q = r
    · subst hqr
      refine ⟨hr, ?_, ?_⟩
      · exact (CleanerList.next_remove hself q).trans (if_pos rfl)
      · exact (CleanerList.prev_remove hself q).trans (if_pos rfl)
    · have hclosed := (closed_close_iff.mp hq).resolve_left hqr
      obtain ⟨hlt, hnext, hprev⟩ := h.marked q hclosed
      obtain ⟨hnext', hprev'⟩ := CleanerList.remove_outside h.linked hmem
        fun hq => ((h.mem_iff q).mp hq).2 hclosed
      exact ⟨hlt, hnext'.trans hnext, hprev'.trans hprev⟩
  · intro t q hq
    rw [disposing_close hself] at hq
    by_cases ht : t = thread
    · subst ht
      rw [Function.update_self] at hq
      cases hq
      exact firstCloser_close_of_open hopen
    · rw [Function.update_of_ne ht] at hq
      have hpending := h.pending t q hq
      have hqr : q ≠ r := by
        rintro rfl
        rw [firstCloser_of_open hopen] at hpending
        cases hpending
      rw [firstCloser_close_of_ne hqr]
      exact hpending
  · intro q
    rw [show (s.close thread r).disposalsOf q = s.disposalsOf q from rfl, h.disposed q,
      expected_close hopen hself hidle]

/-- **The thread that has taken a reference out disposes of it.** -/
theorem Sound.dispose (h : Sound s nodes) (hdisposing : s.disposing thread = some r) :
    Sound (s.dispose thread r) nodes := by
  have hcloser := h.pending thread r hdisposing
  refine ⟨h.linked, h.mem_iff, h.marked, ?_, ?_⟩
  · intro t q hq
    by_cases ht : t = thread
    · subst ht
      have hnone : (s.dispose t r).disposing t = none := Function.update_self _ _ _
      rw [hnone] at hq
      cases hq
    · have hsame : (s.dispose thread r).disposing t = s.disposing t := Function.update_of_ne ht _ _
      rw [hsame] at hq
      exact h.pending t q hq
  · intro q
    have hdisposals : (s.dispose thread r).disposalsOf q = s.disposalsOf q ++
        (if r = q then [⟨thread, r, s.list.nativePtr r⟩] else []) := by
      unfold disposalsOf Cleaners.dispose
      rw [List.filter_append]
      by_cases hq : r = q
      · simp [hq]
      · simp [hq]
    rw [hdisposals, h.disposed q]
    unfold expected
    rw [show (s.dispose thread r).firstCloser q = s.firstCloser q from rfl]
    by_cases hq : r = q
    · subst hq
      have hnone : (s.dispose thread r).disposing thread = none := Function.update_self _ _ _
      rw [hcloser]
      dsimp only
      rw [hdisposing, hnone, if_pos rfl, if_pos rfl, if_neg (by simp)]
      rfl
    · rw [if_neg hq, List.append_nil]
      cases hc : s.firstCloser q with
      | none => rfl
      | some t =>
        dsimp only
        by_cases ht : t = thread
        · subst ht
          have hnone : (s.dispose t r).disposing t = none := Function.update_self _ _ _
          rw [hdisposing, hnone, if_neg (by simpa using hq), if_neg (by simp)]
          rfl
        · have hsame : (s.dispose thread r).disposing t = s.disposing t :=
            Function.update_of_ne ht _ _
          rw [hsame]
          rfl

theorem Sound.step (h : Sound s nodes) {a : Action} {s' : Cleaners} (hstep : s.step a = some s') :
    ∃ nodes', Sound s' nodes' := by
  cases a with
  | create nativePtr =>
    cases hstep
    exact ⟨_, h.create nativePtr⟩
  | close thread ref =>
    unfold Cleaners.step at hstep
    dsimp only at hstep
    split at hstep
    · rename_i hpossible
      cases hstep
      by_cases hclosed : s.Closed ref
      · exact ⟨nodes, h.close_again hclosed⟩
      · obtain ⟨before, after, -, hsound⟩ := h.close_first hpossible.1 hclosed hpossible.2
        exact ⟨before ++ after, hsound⟩
    · cases hstep
  | dispose thread =>
    obtain ⟨ref, hdisposing, rfl⟩ := Option.map_eq_some_iff.mp hstep
    exact ⟨nodes, h.dispose hdisposing⟩

end Steps

theorem Sound.run {s s' : Cleaners} {nodes : List Ref} (actions : List Action) (h : Sound s nodes)
    (hrun : s.run actions = some s') : ∃ nodes', Sound s' nodes' := by
  induction actions generalizing s nodes with
  | nil =>
    cases hrun
    exact ⟨nodes, h⟩
  | cons a actions ih =>
    unfold Cleaners.run at hrun
    rw [List.foldlM_cons] at hrun
    obtain ⟨s₁, hstep, hrest⟩ := Option.bind_eq_some_iff.mp hrun
    obtain ⟨nodes₁, h₁⟩ := h.step hstep
    exact ih h₁ hrest

/-! ## At most once -/

/-- **What holds after every step.**  The nodes reachable from `first` are a list without
repetitions, of the references that have been made and not closed, with `prev` inverse to
`next`; a closed reference points at itself and no node of the list points at it; and a
reference has been disposed of once, by the thread that closed it first, or not at all, if no
`close` has come or that thread is just about to. -/
structure DisposedOnce (s : Cleaners) : Prop where
  list : ∃ nodes, IsList s.list.next s.list.prev nodes s.list.first ∧
    (∀ r, (∃ start, s.list.first = some start ∧
      Relation.ReflTransGen (fun a b => s.list.next a = some b) start r) ↔ r ∈ nodes) ∧
    (∀ p ∈ nodes, ∀ q ∈ nodes, s.list.next p = some q ↔ s.list.prev q = some p) ∧
    (∀ p, s.list.first = some p → s.list.prev p = none) ∧
    ∀ r, r ∈ nodes ↔ r < s.created ∧ ¬ s.Closed r
  removed : ∀ r, s.Closed r → s.list.next r = some r ∧ s.list.prev r = some r ∧
    ∀ q, q < s.created → ¬ s.Closed q → s.list.next q ≠ some r ∧ s.list.prev q ≠ some r
  disposed : ∀ r, s.disposalsOf r = s.expected r
  atMostOnce : ∀ r, (s.disposalsOf r).length ≤ 1

/-- **Native handles are disposed of at most once**, however the threads take their turns. -/
theorem disposed_once {actions : List Action} {s : Cleaners} (hrun : start.run actions = some s) :
    DisposedOnce s := by
  obtain ⟨nodes, h⟩ := sound_start.run actions hrun
  have hlinked := h.linked
  refine ⟨⟨nodes, hlinked, hlinked.reaches_iff, fun p hp q hq => hlinked.next_eq_some_iff hp hq,
    fun p => hlinked.prev_first, h.mem_iff⟩, ?_, h.disposed, ?_⟩
  · intro r hclosed
    obtain ⟨-, hnext, hprev⟩ := h.marked r hclosed
    refine ⟨hnext, hprev, fun q hq hopen => ?_⟩
    -- what a node of the list points at is in the list, and `r` is not
    have hmem := (h.mem_iff q).mpr ⟨hq, hopen⟩
    have hnot : r ∉ nodes := fun hr => ((h.mem_iff r).mp hr).2 hclosed
    exact ⟨fun hto => hnot (hlinked.next_mem hmem hto), fun hto => hnot (hlinked.prev_mem hmem hto)⟩
  · intro r
    rw [h.disposed r, expected]
    split
    · exact Nat.zero_le _
    · split
      · exact Nat.zero_le _
      · exact Nat.le_refl _

/-- Three references, of which two threads close the second at the same time, and one of
them the first as well. -/
def twoClosers : List Action :=
  [.create 10, .create 20, .create 30, .close 1 1, .close 2 1, .close 2 0, .dispose 1, .dispose 2]

theorem disposed_once_twoClosers : ∃ s, start.run twoClosers = some s ∧ DisposedOnce s ∧
    s.disposals = [⟨1, 1, 20⟩, ⟨2, 0, 10⟩] :=
  ⟨_, rfl, disposed_once (show start.run twoClosers = some _ from rfl), rfl⟩

end Cleaners

end Chttpc
