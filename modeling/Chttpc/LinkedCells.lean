import Mathlib.Data.List.Forall2
import Mathlib.Data.List.Nodup
import Mathlib.Data.List.Perm.Subperm
import Mathlib.Data.Set.Card

/-!
# Linked lists of allocated cells

A memory hands out cells one after another; a pointer is the number of a cell, and `none`
is the null pointer.  To read, write or free a cell that has not been handed out or has
been freed is a fault, which is `none` for the whole operation, so an operation that returns
has followed no dangling pointer and has freed nothing twice.

`IsList` says that the pointers lead from one place through the cells of a list to another;
a list has the pointer and the content of each cell.  `Lists` is the invariant of a program
that keeps several null-terminated lists: the lists share no cell, and every allocated cell
is in one of them, so nothing has leaked.

Programs walk a list with a pointer to the place that holds the next pointer, which is the
root of the list or a field of a cell (`Place`).  `seek` is this loop, and `writePlace_behind`
what a program does with its result: it cuts a list behind some of its cells and goes on
with any other pointer.
-/

namespace Chttpc.Linked
variable {C α : Type}

/-! ## Memory -/

/-- Allocated cells, and how many have been handed out. -/
structure Memory (C : Type) where
  cells : Nat → Option C
  top : Nat

namespace Memory
variable (m : Memory C) (p q : Nat) (v : Option C) (c : C)

def empty : Memory C := ⟨fun _ => none, 0⟩

def read : Option C := m.cells p

def set : Memory C := { m with cells := fun q => if q = p then v else m.cells q }

def write : Option (Memory C) := if (m.read p).isSome then some (m.set p (some c)) else none

def free : Option (Memory C) := if (m.read p).isSome then some (m.set p none) else none

/-- A new cell, and the pointer to it. -/
def malloc : Memory C × Nat := ({ m.set m.top (some c) with top := m.top + 1 }, m.top)

@[simp] theorem read_empty : (empty : Memory C).read p = none := rfl

theorem read_set : (m.set p v).read q = if q = p then v else m.read q := rfl

@[simp] theorem read_set_self : (m.set p v).read p = v := if_pos rfl

theorem read_set_of_ne {q : Nat} (h : q ≠ p) : (m.set p v).read q = m.read q := if_neg h

@[simp] theorem top_set : (m.set p v).top = m.top := rfl

theorem read_malloc : (m.malloc c).1.read q = if q = m.top then some c else m.read q := rfl

variable {m p c}

theorem write_of_read {c' : C} (h : m.read p = some c') : m.write p c = some (m.set p (some c)) := by
  rw [write, h]
  rfl

theorem free_of_read (h : m.read p = some c) : m.free p = some (m.set p none) := by
  rw [free, h]
  rfl

end Memory

/-! ## What is allocated -/

/-- The allocated cells are these. -/
structure Allocated (m : Memory C) (ps : List Nat) : Prop where
  nodup : ps.Nodup
  live : ∀ p, m.read p ≠ none ↔ p ∈ ps
  bounded : ∀ p, m.read p ≠ none → p < m.top

section Allocated
variable {m : Memory C} {ps qs : List Nat} {p : Nat}

theorem allocated_empty : Allocated (Memory.empty : Memory C) [] where
  nodup := List.nodup_nil
  live := by simp
  bounded := by simp

theorem Allocated.perm (h : Allocated m ps) (hperm : ps.Perm qs) : Allocated m qs where
  nodup := hperm.nodup_iff.mp h.nodup
  live := fun p => (h.live p).trans hperm.mem_iff
  bounded := h.bounded

theorem Allocated.top_notMem (h : Allocated m ps) : m.top ∉ ps := fun hmem =>
  Nat.lt_irrefl _ (h.bounded _ ((h.live _).mpr hmem))

theorem Allocated.malloc (h : Allocated m ps) (c : C) : Allocated (m.malloc c).1 (m.top :: ps) where
  nodup := List.nodup_cons.mpr ⟨h.top_notMem, h.nodup⟩
  live := by
    intro q
    rw [Memory.read_malloc, List.mem_cons]
    split
    · rename_i he
      simp [he]
    · rename_i he
      rw [h.live]
      simp [he]
  bounded := by
    intro q hq
    rw [Memory.read_malloc] at hq
    show q < m.top + 1
    split at hq
    · omega
    · have := h.bounded q hq
      omega

/-- A cell that is freed is allocated no more. -/
theorem Allocated.free (h : Allocated m (p :: ps)) :
    m.free p = some (m.set p none) ∧ Allocated (m.set p none) ps := by
  obtain ⟨hp, hps⟩ := List.nodup_cons.mp h.nodup
  obtain ⟨c, hread⟩ := Option.ne_none_iff_exists'.mp ((h.live p).mpr List.mem_cons_self)
  refine ⟨Memory.free_of_read hread, hps, fun q => ?_, fun q hq => ?_⟩
  · rw [Memory.read_set]
    split
    · rename_i he
      simp [he, hp]
    · rename_i he
      rw [h.live, List.mem_cons]
      simp [he]
  · rw [Memory.read_set] at hq
    split at hq
    · exact absurd rfl hq
    · exact h.bounded q hq

theorem Allocated.write (h : Allocated m ps) (hp : p ∈ ps) (c : C) :
    m.write p c = some (m.set p (some c)) ∧ Allocated (m.set p (some c)) ps := by
  obtain ⟨_, hread⟩ := Option.ne_none_iff_exists'.mp ((h.live p).mpr hp)
  have hlive : ∀ q, (m.set p (some c)).read q ≠ none ↔ m.read q ≠ none := by
    intro q
    rw [Memory.read_set]
    split
    · rename_i he
      simp [he, hread]
    · rfl
  refine ⟨Memory.write_of_read hread, h.nodup, fun q => ?_, fun q hq => ?_⟩
  · rw [hlive, h.live]
  · exact h.bounded q ((hlive q).mp hq)

theorem Allocated.ncard (h : Allocated m ps) : {p | m.read p ≠ none}.ncard = ps.length := by
  have hset : {p | m.read p ≠ none} = ↑ps.toFinset := by
    ext p
    simp [h.live]
  rw [hset, Set.ncard_coe_finset, List.toFinset_card_of_nodup h.nodup]

end Allocated

/-! ## Lists -/

/-- A cell of a singly linked list. -/
structure Cell (α : Type) where
  content : α
  next : Option Nat

/-- The pointers of a list of cells. -/
abbrev pointers (l : List (Nat × α)) : List Nat := l.map Prod.fst

/-- From `start`, the pointers lead through the cells of the list to `stop`. -/
def IsList (m : Memory (Cell α)) (start : Option Nat) (l : List (Nat × α)) (stop : Option Nat) :
    Prop :=
  match l with
  | [] => start = stop
  | n :: l => start = some n.1 ∧ ∃ next, m.read n.1 = some ⟨n.2, next⟩ ∧ IsList m next l stop

section IsList
variable {m m' : Memory (Cell α)} {start stop : Option Nat} {l front rest : List (Nat × α)}
  {n : Nat × α}

theorem isList_append : IsList m start (front ++ rest) stop ↔
    ∃ middle, IsList m start front middle ∧ IsList m middle rest stop := by
  induction front generalizing start with
  | nil => simp [IsList]
  | cons n front ih =>
    simp only [List.cons_append, IsList, ih]
    constructor
    · rintro ⟨hstart, next, hread, middle, hfront, hrest⟩
      exact ⟨middle, ⟨hstart, next, hread, hfront⟩, hrest⟩
    · rintro ⟨middle, ⟨hstart, next, hread, hfront⟩, hrest⟩
      exact ⟨hstart, next, hread, middle, hfront, hrest⟩

theorem IsList.start_eq (h : IsList m start l none) : start = l.head?.map Prod.fst := by
  cases l with
  | nil => exact h
  | cons n l => exact h.1

/-- A list depends on its own cells only. -/
theorem IsList.congr (h : IsList m start l stop) (hread : ∀ p ∈ pointers l, m'.read p = m.read p) :
    IsList m' start l stop := by
  induction l generalizing start with
  | nil => exact h
  | cons n l ih =>
    obtain ⟨hstart, next, hn, hrest⟩ := h
    refine ⟨hstart, next, (hread n.1 (by simp)).trans hn, ih hrest fun p hp => ?_⟩
    exact hread p (List.mem_cons_of_mem _ hp)

/-- Every cell of a list is allocated and has its content. -/
theorem IsList.read_mem (h : IsList m start l stop) (hn : n ∈ l) :
    ∃ next, m.read n.1 = some ⟨n.2, next⟩ := by
  induction l generalizing start with
  | nil => cases hn
  | cons n' l ih =>
    obtain ⟨-, next, hread, hrest⟩ := h
    rcases List.mem_cons.mp hn with rfl | hn
    · exact ⟨next, hread⟩
    · exact ih hrest hn

/-- Another content in a cell. -/
theorem IsList.set_content (h : IsList m start (front ++ n :: rest) stop)
    (hnodup : (pointers (front ++ n :: rest)).Nodup) {next : Option Nat}
    (hread : m.read n.1 = some ⟨n.2, next⟩) (x : α) :
    IsList (m.set n.1 (some ⟨x, next⟩)) start (front ++ (n.1, x) :: rest) stop := by
  obtain ⟨middle, hfront, hmiddle, next', hread', hrest⟩ := isList_append.mp h
  cases hread.symm.trans hread'
  rw [pointers, List.map_append, List.map_cons, List.nodup_middle] at hnodup
  have hother := (List.nodup_cons.mp hnodup).1
  refine isList_append.mpr ⟨middle, hfront.congr fun p hp => ?_, hmiddle, next, ?_, ?_⟩
  · exact m.read_set_of_ne n.1 _ fun he => hother (he ▸ List.mem_append_left _ hp)
  · exact m.read_set_self n.1 _
  · refine hrest.congr fun p hp => ?_
    exact m.read_set_of_ne n.1 _ fun he => hother (he ▸ List.mem_append_right _ hp)

end IsList

/-! ## Places -/

/-- A memory and an array of roots. -/
structure Store (α : Type) where
  memory : Memory (Cell α)
  roots : List (Option Nat)

/-- What a pointer to a pointer points to. -/
inductive Place
  | root (i : Nat)
  | next (p : Nat)
  deriving DecidableEq, Repr

namespace Store
variable (s : Store α)

/-- `*place` -/
def readPlace : Place → Option (Option Nat)
  | .root i => s.roots[i]?
  | .next p => (s.memory.read p).map (·.next)

/-- `*place = v` -/
def writePlace (place : Place) (v : Option Nat) : Option (Store α) :=
  match place with
  | .root i => if i < s.roots.length then some { s with roots := s.roots.set i v } else none
  | .next p =>
      (s.memory.read p).bind fun cell =>
        (s.memory.write p { cell with next := v }).map fun memory => { s with memory }

/-- From a place on, the first pointer to a cell whose content passes the test, with its
place, or the null pointer at the end. -/
def seek (test : α → Bool) (s : Store α) : Nat → Place → Option (Place × Option Nat)
  | 0, _ => none
  | fuel + 1, place =>
      match s.readPlace place with
      | none => none
      | some none => some (place, none)
      | some (some current) =>
          match s.memory.read current with
          | none => none
          | some cell =>
              if test cell.content then some (place, some current)
              else seek test s fuel (.next current)

/-- `*place = malloc(..)`, with nothing behind the new cell. -/
def link (place : Place) (x : α) : Option (Store α) :=
  ({ s with memory := (s.memory.malloc ⟨x, none⟩).1 } : Store α).writePlace place
    (some s.memory.top)

/-- `*place = p->next; free(p)` -/
def unlink (place : Place) (p : Nat) : Option (Store α) :=
  (s.memory.read p).bind fun cell =>
    (s.writePlace place cell.next).bind fun s =>
      (s.memory.free p).map fun memory => { s with memory }

/-- `p->next = roots[i]; roots[i] = p` -/
def push (i p : Nat) : Option (Store α) :=
  (s.memory.read p).bind fun cell =>
    (s.roots[i]?).bind fun root =>
      (s.memory.write p { cell with next := root }).map fun memory =>
        ⟨memory, s.roots.set i (some p)⟩

end Store

section Walks
variable (test : α → Bool)

/-- `p->content = x` -/
def Memory.setContent (m : Memory (Cell α)) (p : Nat) (x : α) : Option (Memory (Cell α)) :=
  (m.read p).bind fun cell => m.write p { cell with content := x }

/-- From a pointer on, the content of the first cell that passes the test. -/
def findCell (m : Memory (Cell α)) : Nat → Option Nat → Option (Option α)
  | _, none => some none
  | 0, some _ => none
  | fuel + 1, some p =>
      match m.read p with
      | none => none
      | some cell => if test cell.content then some (some cell.content) else findCell m fuel cell.next

/-- Frees the cells from a pointer on, with each next pointer read before its cell is freed. -/
def freeChain : Nat → Option Nat → Memory (Cell α) → Option (Memory (Cell α))
  | _, none, m => some m
  | 0, some _, _ => none
  | fuel + 1, some p, m =>
      (m.read p).bind fun cell => (m.free p).bind (freeChain fuel cell.next)

end Walks

/-- The place that holds the pointer behind the first cells of a list. -/
def placeBehind (i : Nat) (front : List (Nat × α)) : Place :=
  match front.getLast? with
  | none => .root i
  | some n => .next n.1

@[simp] theorem placeBehind_nil (i : Nat) : placeBehind i ([] : List (Nat × α)) = .root i := rfl

@[simp] theorem placeBehind_concat (i : Nat) (front : List (Nat × α)) (n : Nat × α) :
    placeBehind i (front ++ [n]) = .next n.1 := by
  simp [placeBehind]

section Places
variable {s : Store α} {above below : List (Option Nat)} {root stop : Option Nat}
  {front rest : List (Nat × α)} {test : α → Bool}

theorem readPlace_behind (hroots : s.roots = above ++ root :: below)
    (h : IsList s.memory root front stop) :
    s.readPlace (placeBehind above.length front) = some stop := by
  rcases List.eq_nil_or_concat front with rfl | ⟨init, n, rfl⟩
  · cases h
    simp [Store.readPlace, hroots]
  · rw [List.concat_eq_append] at h ⊢
    obtain ⟨middle, -, -, next, hread, rfl⟩ := isList_append.mp h
    simp [Store.readPlace, hread]

/-- **The loop stops at the first cell that passes the test**, or at the end. -/
theorem seek_behind (hroots : s.roots = above ++ root :: below)
    (hrest : ∀ n, rest.head? = some n → test n.2 = true) :
    ∀ (fuel : Nat) (done front : List (Nat × α)),
      IsList s.memory root (done ++ front ++ rest) none → (∀ n ∈ front, test n.2 = false) →
        front.length < fuel →
          s.seek test fuel (placeBehind above.length done) =
            some (placeBehind above.length (done ++ front), rest.head?.map Prod.fst)
  | 0, _, _, _, _, hfuel => absurd hfuel (Nat.not_lt_zero _)
  | fuel + 1, done, [], h, _, _ => by
      rw [List.append_nil] at h ⊢
      obtain ⟨middle, hdone, hlist⟩ := isList_append.mp h
      rw [Store.seek, readPlace_behind hroots hdone]
      cases rest with
      | nil =>
        cases hlist
        rfl
      | cons n rest =>
        obtain ⟨rfl, next, hread, -⟩ := hlist
        simp [hread, hrest n rfl]
  | fuel + 1, done, n :: front, h, hfront, hfuel => by
      have ih := seek_behind hroots hrest fuel (done ++ [n]) front (by simpa using h)
        (fun x hx => hfront x (List.mem_cons_of_mem _ hx)) (Nat.lt_of_succ_lt_succ hfuel)
      rw [List.append_assoc] at h
      obtain ⟨middle, hdone, rfl, next, hread, -⟩ := isList_append.mp h
      rw [Store.seek, readPlace_behind hroots hdone]
      simp only [hread, hfront n List.mem_cons_self, Bool.false_eq_true, if_false]
      rw [placeBehind_concat] at ih
      rw [ih, List.append_assoc]
      rfl

/-- **Cutting a list behind some of its cells.**  The other cells stay as they are. -/
theorem writePlace_behind (hroots : s.roots = above ++ root :: below)
    (h : IsList s.memory root front stop) (hnodup : (pointers front).Nodup) (v : Option Nat) :
    ∃ root' s', s.writePlace (placeBehind above.length front) v = some s' ∧
      s'.roots = above ++ root' :: below ∧ IsList s'.memory root' front v ∧
      (∀ p, p ∉ pointers front → s'.memory.read p = s.memory.read p) ∧
      (∀ p, s'.memory.read p ≠ none ↔ s.memory.read p ≠ none) ∧
      s'.memory.top = s.memory.top := by
  rcases List.eq_nil_or_concat front with rfl | ⟨init, n, rfl⟩
  · refine ⟨v, { s with roots := above ++ v :: below }, ?_, rfl, rfl, fun _ _ => rfl,
      fun _ => Iff.rfl, rfl⟩
    simp [Store.writePlace, hroots]
  · rw [List.concat_eq_append] at h hnodup ⊢
    obtain ⟨middle, hinit, hmiddle, next, hread, -⟩ := isList_append.mp h
    have hother : n.1 ∉ pointers init := by
      intro hmem
      rw [pointers, List.map_append, List.nodup_append] at hnodup
      exact hnodup.2.2 n.1 hmem n.1 (by simp) rfl
    refine ⟨root, { s with memory := s.memory.set n.1 (some ⟨n.2, v⟩) }, ?_, hroots, ?_, ?_, ?_, rfl⟩
    · simp [Store.writePlace, hread, Memory.write_of_read hread]
    · refine isList_append.mpr ⟨middle, hinit.congr fun p hp => ?_, hmiddle, v, ?_, rfl⟩
      · exact s.memory.read_set_of_ne n.1 _ fun he => hother (he ▸ hp)
      · exact s.memory.read_set_self n.1 _
    · intro p hp
      exact s.memory.read_set_of_ne n.1 _ fun he => hp (he ▸ by simp)
    · intro p
      rw [Memory.read_set]
      split
      · rename_i he
        simp [he, hread]
      · rfl

end Places

/-! ## Several lists -/

/-- The pointers of several lists. -/
abbrev cellsIn (lists : List (List (Nat × α))) : List Nat := pointers lists.flatten

/-- The lists share no cell, and every allocated cell is in one of them. -/
structure Lists (m : Memory (Cell α)) (roots : List (Option Nat))
    (lists : List (List (Nat × α))) : Prop where
  chains : List.Forall₂ (fun root l => IsList m root l none) roots lists
  nodup : (cellsIn lists).Nodup
  live : ∀ p, m.read p ≠ none ↔ p ∈ cellsIn lists
  bounded : ∀ p, m.read p ≠ none → p < m.top

section Lists
variable {m m' : Memory (Cell α)} {s : Store α} {roots above below : List (Option Nat)}
  {root root' : Option Nat} {lists before after : List (List (Nat × α))}
  {l l' front rest : List (Nat × α)} {n : Nat × α} {x : α} {p : Nat}

/-- One of the lists, and the others. -/
theorem cellsIn_perm (before after : List (List (Nat × α))) (l : List (Nat × α)) :
    (cellsIn (before ++ l :: after)).Perm (pointers l ++ cellsIn (before ++ after)) := by
  unfold cellsIn pointers
  simp only [List.flatten_append, List.flatten_cons, List.map_append]
  exact List.perm_append_comm_assoc _ _ _

theorem chains_split {R : Option Nat → List (Nat × α) → Prop} :
    ∀ {before : List (List (Nat × α))} {roots : List (Option Nat)},
      List.Forall₂ R roots (before ++ l :: after) →
        ∃ above root below, roots = above ++ root :: below ∧ above.length = before.length ∧
          List.Forall₂ R above before ∧ R root l ∧ List.Forall₂ R below after
  | [], _ :: below, .cons hroot hbelow => ⟨[], _, below, rfl, rfl, .nil, hroot, hbelow⟩
  | _ :: _, _ :: _, .cons hfirst hroots => by
      obtain ⟨above, root, below, rfl, hlength, habove, hroot, hbelow⟩ := chains_split hroots
      exact ⟨_ :: above, root, below, rfl, congrArg (· + 1) hlength, .cons hfirst habove, hroot,
        hbelow⟩

theorem chains_congr (h : List.Forall₂ (fun root l => IsList m root l none) roots lists) :
    (∀ p ∈ cellsIn lists, m'.read p = m.read p) →
      List.Forall₂ (fun root l => IsList m' root l none) roots lists := by
  induction h with
  | nil => exact fun _ => .nil
  | cons hlist _ ih =>
    intro hread
    refine .cons (hlist.congr fun p hp => hread p ?_) (ih fun p hp => hread p ?_)
    · rw [cellsIn, List.flatten_cons, pointers, List.map_append]
      exact List.mem_append_left _ hp
    · rw [cellsIn, List.flatten_cons, pointers, List.map_append]
      exact List.mem_append_right _ hp

theorem Lists.split (h : Lists m roots (before ++ l :: after)) :
    ∃ above root below, roots = above ++ root :: below ∧ above.length = before.length ∧
      IsList m root l none := by
  obtain ⟨above, root, below, hroots, hlength, -, hlist, -⟩ := chains_split h.chains
  exact ⟨above, root, below, hroots, hlength, hlist⟩

theorem Lists.read_mem (h : Lists m roots (before ++ l :: after)) (hn : n ∈ l) :
    ∃ next, m.read n.1 = some ⟨n.2, next⟩ := by
  obtain ⟨_, _, _, _, _, hlist⟩ := h.split
  exact hlist.read_mem hn

theorem Lists.nodup_list (h : Lists m roots (before ++ l :: after)) : (pointers l).Nodup :=
  (List.nodup_append.mp ((cellsIn_perm before after l).nodup_iff.mp h.nodup)).1

theorem Lists.apart (h : Lists m roots (before ++ l :: after)) (hp : p ∈ pointers l) :
    p ∉ cellsIn (before ++ after) := fun hother =>
  (List.nodup_append.mp ((cellsIn_perm before after l).nodup_iff.mp h.nodup)).2.2 p hp p hother rfl

theorem Lists.live_iff (h : Lists m roots (before ++ l :: after)) (p : Nat) :
    m.read p ≠ none ↔ p ∈ pointers l ∨ p ∈ cellsIn (before ++ after) := by
  rw [h.live, (cellsIn_perm before after l).mem_iff, List.mem_append]

/-- The lists with one of them changed, and no cell of another one. -/
theorem Lists.change (h : Lists m (above ++ root :: below) (before ++ l :: after))
    (hlength : above.length = before.length) (hlist : IsList m' root' l' none)
    (hframe : ∀ p ∈ cellsIn (before ++ after), m'.read p = m.read p)
    (hnodup : (pointers l').Nodup) (hapart : ∀ p ∈ pointers l', p ∉ cellsIn (before ++ after))
    (hlive : ∀ p, m'.read p ≠ none ↔ p ∈ pointers l' ∨ p ∈ cellsIn (before ++ after))
    (hbounded : ∀ p, m'.read p ≠ none → p < m'.top) :
    Lists m' (above ++ root' :: below) (before ++ l' :: after) where
  chains := by
    obtain ⟨above₁, root₁, below₁, hroots, hlength₁, habove, -, hbelow⟩ := chains_split h.chains
    obtain ⟨rfl, hcons⟩ := List.append_inj hroots (hlength.trans hlength₁.symm)
    cases hcons
    have hmem : ∀ p, p ∈ cellsIn before ∨ p ∈ cellsIn after → p ∈ cellsIn (before ++ after) := by
      intro p hp
      rwa [cellsIn, List.flatten_append, pointers, List.map_append, List.mem_append]
    refine List.rel_append ?_ (.cons hlist ?_)
    · exact chains_congr habove fun p hp => hframe p (hmem p (Or.inl hp))
    · exact chains_congr hbelow fun p hp => hframe p (hmem p (Or.inr hp))
  nodup := by
    have hothers : (cellsIn (before ++ after)).Nodup :=
      (List.nodup_append.mp ((cellsIn_perm before after l).nodup_iff.mp h.nodup)).2.1
    refine (cellsIn_perm before after l').nodup_iff.mpr (List.nodup_append.mpr ⟨hnodup, hothers, ?_⟩)
    rintro p hp q hq rfl
    exact hapart p hp hq
  live := by
    intro p
    rw [hlive, (cellsIn_perm before after l').mem_iff, List.mem_append]
  bounded := hbounded

theorem Lists.allocated (h : Lists m roots lists) : Allocated m (cellsIn lists) :=
  ⟨h.nodup, h.live, h.bounded⟩

/-- Lists of no cells more. -/
theorem Lists.replicate_nil (h : Lists m roots lists) (count : Nat) :
    Lists m (List.replicate count none ++ roots) (List.replicate count [] ++ lists) where
  chains := by
    refine List.rel_append ?_ h.chains
    induction count with
    | zero => exact .nil
    | succ count ih => exact .cons rfl ih
  nodup := by simpa using h.nodup
  live := by simpa using h.live
  bounded := h.bounded

theorem lists_empty : Lists (Memory.empty : Memory (Cell α)) [] [] where
  chains := .nil
  nodup := by simp
  live := by simp
  bounded := by simp

/-- A list is no longer than the number of cells that have been handed out. -/
theorem Lists.length_le (h : Lists m roots (before ++ l :: after)) : l.length ≤ m.top := by
  have hsub : pointers l ⊆ List.range m.top := fun p hp =>
    List.mem_range.mpr (h.bounded p ((h.live_iff p).mpr (Or.inl hp)))
  have hle := (List.subperm_of_subset h.nodup_list hsub).length_le
  rwa [List.length_map, List.length_range] at hle

/-- **A new cell, put behind all cells of a list.** -/
theorem Lists.link (h : Lists s.memory s.roots (before ++ l :: after)) (x : α) :
    ∃ s', s.link (placeBehind before.length l) x = some s' ∧
      Lists s'.memory s'.roots (before ++ (l ++ [(s.memory.top, x)]) :: after) := by
  obtain ⟨above, root, below, hroots, hlength, hlist⟩ := h.split
  rw [hroots] at h
  have hfresh : ∀ q, s.memory.read q ≠ none → q ≠ s.memory.top :=
    fun q hq => Nat.ne_of_lt (h.bounded q hq)
  have hfree : s.memory.top ∉ pointers l ∧ s.memory.top ∉ cellsIn (before ++ after) := by
    constructor
    · exact fun hmem => hfresh _ ((h.live_iff _).mpr (Or.inl hmem)) rfl
    · exact fun hmem => hfresh _ ((h.live_iff _).mpr (Or.inr hmem)) rfl
  have hread : ∀ q, q ≠ s.memory.top →
      (s.memory.malloc ⟨x, none⟩).1.read q = s.memory.read q := fun q hq => if_neg hq
  have hlist' : IsList (s.memory.malloc ⟨x, none⟩).1 root l none :=
    hlist.congr fun q hq => hread q fun he => hfree.1 (he ▸ hq)
  obtain ⟨root', s', hwrite, hroots', hfront, hframe, hlive, htop⟩ :=
    writePlace_behind (s := ⟨(s.memory.malloc ⟨x, none⟩).1, s.roots⟩) hroots hlist' h.nodup_list
      (some s.memory.top)
  rw [hlength] at hwrite
  have hnew : s'.memory.read s.memory.top = some ⟨x, none⟩ := by
    rw [hframe _ hfree.1]
    exact if_pos rfl
  refine ⟨s', hwrite, ?_⟩
  rw [hroots']
  refine h.change hlength (isList_append.mpr ⟨_, hfront, rfl, none, hnew, rfl⟩) ?_ ?_ ?_ ?_ ?_
  · intro q hq
    rw [hframe q fun hmem => h.apart hmem hq]
    exact hread q fun he => hfree.2 (he ▸ hq)
  · rw [pointers, List.map_append, List.nodup_append]
    refine ⟨h.nodup_list, by simp, ?_⟩
    rintro q hq r hr rfl
    have htop : q = s.memory.top := List.mem_singleton.mp hr
    exact hfree.1 (htop ▸ hq)
  · intro q hq
    rw [pointers, List.map_append, List.mem_append] at hq
    rcases hq with hq | hq
    · exact h.apart hq
    · rw [List.mem_singleton.mp hq]
      exact hfree.2
  · intro q
    rw [hlive, Memory.read_malloc, pointers, List.map_append, List.mem_append]
    by_cases hq : q = s.memory.top
    · simp [hq]
    · rw [if_neg hq, h.live_iff]
      simp [hq]
  · intro q hq
    rw [hlive, Memory.read_malloc] at hq
    rw [htop]
    show q < s.memory.top + 1
    by_cases htop : q = s.memory.top
    · omega
    · rw [if_neg htop] at hq
      have := h.bounded q hq
      omega

/-- **Another content in a cell.** -/
theorem Lists.setContent (h : Lists m roots (before ++ (front ++ n :: rest) :: after)) (x : α) :
    ∃ m', m.setContent n.1 x = some m' ∧
      Lists m' roots (before ++ (front ++ (n.1, x) :: rest) :: after) := by
  obtain ⟨above, root, below, rfl, hlength, hlist⟩ := h.split
  obtain ⟨next, hread⟩ := hlist.read_mem (n := n) (by simp)
  have hsame : pointers (front ++ (n.1, x) :: rest) = pointers (front ++ n :: rest) := by simp
  refine ⟨m.set n.1 (some ⟨x, next⟩), ?_, ?_⟩
  · rw [Memory.setContent, hread]
    exact Memory.write_of_read hread
  · have hlive : ∀ p, (m.set n.1 (some ⟨x, next⟩)).read p ≠ none ↔ m.read p ≠ none := by
      intro p
      rw [Memory.read_set]
      split
      · rename_i he
        simp [he, hread]
      · rfl
    refine h.change hlength (hlist.set_content h.nodup_list hread x) ?_ ?_ ?_ ?_ ?_
    · intro q hq
      refine m.read_set_of_ne n.1 _ fun he => ?_
      exact h.apart (p := n.1) (by simp) (he ▸ hq)
    · rw [hsame]
      exact h.nodup_list
    · rw [hsame]
      exact fun q hq => h.apart hq
    · intro q
      rw [hlive, hsame, h.live_iff]
    · exact fun q hq => h.bounded q ((hlive q).mp hq)

/-- **A cell taken out of its list and freed.** -/
theorem Lists.unlink (h : Lists s.memory s.roots (before ++ (front ++ n :: rest) :: after)) :
    ∃ s', s.unlink (placeBehind before.length front) n.1 = some s' ∧
      Lists s'.memory s'.roots (before ++ (front ++ rest) :: after) := by
  obtain ⟨above, root, below, hroots, hlength, hlist⟩ := h.split
  obtain ⟨middle, hfront, hmiddle, next, hread, hrest⟩ := isList_append.mp hlist
  have hnodup := h.nodup_list
  rw [pointers, List.map_append, List.map_cons] at hnodup
  obtain ⟨hn, hothers⟩ := List.nodup_cons.mp (List.nodup_middle.mp hnodup)
  rw [← List.map_append] at hn hothers
  have hnodup' := List.nodup_append.mp (List.map_append .. ▸ hothers)
  obtain ⟨hnf, hnr⟩ : n.1 ∉ pointers front ∧ n.1 ∉ pointers rest := by
    rwa [List.map_append, List.mem_append, not_or] at hn
  have hmem : ∀ q, q ∈ pointers (front ++ n :: rest) ↔ q = n.1 ∨ q ∈ pointers (front ++ rest) := by
    intro q
    simp only [pointers, List.map_append, List.map_cons, List.mem_append, List.mem_cons]
    tauto
  obtain ⟨root', s', hwrite, hroots', hfront', hframe, hlive, htop⟩ :=
    writePlace_behind hroots hfront hnodup'.1 next
  rw [hlength] at hwrite
  have hread' : s'.memory.read n.1 = some ⟨n.2, next⟩ := by rw [hframe _ hnf, hread]
  refine ⟨{ s' with memory := s'.memory.set n.1 none }, ?_, ?_⟩
  · rw [Store.unlink, hread, Option.bind_some, hwrite, Option.bind_some, Memory.free_of_read hread']
    rfl
  · have hkeep : ∀ q, q ≠ n.1 → (s'.memory.set n.1 none).read q = s'.memory.read q :=
      fun q hq => s'.memory.read_set_of_ne n.1 none hq
    rw [hroots] at h
    rw [hroots']
    refine h.change hlength (isList_append.mpr ⟨next, ?_, ?_⟩) ?_ hothers ?_ ?_ ?_
    · exact hfront'.congr fun q hq => hkeep q fun he => hnf (he ▸ hq)
    · refine hrest.congr fun q hq => ?_
      rw [hkeep q fun he => hnr (he ▸ hq)]
      exact hframe q fun hmem => hnodup'.2.2 q hmem q hq rfl
    · intro q hq
      rw [hkeep q fun he => h.apart (p := q) ((hmem q).mpr (Or.inl he)) hq]
      exact hframe q fun hqf => h.apart ((hmem q).mpr (Or.inr (by simp [hqf]))) hq
    · exact fun q hq => h.apart ((hmem q).mpr (Or.inr hq))
    · intro q
      rw [Memory.read_set]
      split
      · rename_i he
        rw [he]
        refine iff_of_false (fun hne => hne rfl) ?_
        rintro (hq | hq)
        · exact hn hq
        · exact h.apart (p := n.1) ((hmem n.1).mpr (Or.inl rfl)) hq
      · rename_i he
        rw [hlive, h.live_iff, hmem]
        simp [he]
    · intro q hq
      rw [Memory.read_set] at hq
      split at hq
      · exact absurd rfl hq
      · rw [Memory.top_set, htop]
        exact h.bounded q ((hlive q).mp hq)

/-- **The loop over the places of a list** stops in front of the first cell that passes the
test, or behind the last cell. -/
theorem Lists.seek {test : α → Bool}
    (h : Lists s.memory s.roots (before ++ (front ++ rest) :: after))
    (hfront : ∀ n ∈ front, test n.2 = false) (hrest : ∀ n, rest.head? = some n → test n.2 = true) :
    s.seek test (s.memory.top + 1) (.root before.length) =
      some (placeBehind before.length front, rest.head?.map Prod.fst) := by
  obtain ⟨above, root, below, hroots, hlength, hlist⟩ := h.split
  have hle := h.length_le
  rw [List.length_append] at hle
  have hseek := seek_behind hroots hrest (s.memory.top + 1) [] front (by simpa using hlist) hfront
    (by omega)
  rwa [hlength, placeBehind_nil, List.nil_append] at hseek

/-- **The loop over the cells of a list** finds what a search of the list finds. -/
theorem IsList.findCell {test : α → Bool} :
    ∀ {l : List (Nat × α)} {root : Option Nat} {fuel : Nat}, IsList m root l none →
      l.length ≤ fuel → Linked.findCell test m fuel root = some ((l.map Prod.snd).find? test)
  | [], _, _, h, _ => by
      cases h
      rw [Linked.findCell]
      rfl
  | n :: l, _, 0, _, hfuel => absurd hfuel (Nat.not_succ_le_zero _)
  | n :: l, _, fuel + 1, h, hfuel => by
      obtain ⟨rfl, next, hread, hlist⟩ := h
      have ih : Linked.findCell test m fuel next = some ((l.map Prod.snd).find? test) :=
        hlist.findCell (Nat.le_of_succ_le_succ hfuel)
      rw [Linked.findCell, hread, List.map_cons, List.find?_cons]
      cases htest : test n.2 with
      | true => simp [htest]
      | false => simp [htest, ih]

/-- The first cell of the first list, freed. -/
theorem Lists.free (h : Lists m (root :: roots) ((n :: l) :: lists)) :
    ∃ next m', m.read n.1 = some ⟨n.2, next⟩ ∧ m.free n.1 = some m' ∧
      Lists m' (next :: roots) (l :: lists) := by
  have h' : Lists m ([] ++ root :: roots) ([] ++ (n :: l) :: lists) := h
  obtain ⟨above, root₁, below, hroots, hlength, hlist⟩ := h'.split
  obtain rfl := List.length_eq_zero_iff.mp hlength
  cases hroots
  obtain ⟨rfl, next, hread, hrest⟩ := hlist
  obtain ⟨hn, hnodup⟩ := List.nodup_cons.mp h'.nodup_list
  refine ⟨next, _, hread, Memory.free_of_read hread, ?_⟩
  have hkeep : ∀ q, q ≠ n.1 → (m.set n.1 none).read q = m.read q :=
    fun q hq => m.read_set_of_ne n.1 none hq
  refine h'.change rfl (hrest.congr fun q hq => hkeep q fun he => hn (he ▸ hq)) ?_ hnodup ?_ ?_ ?_
  · exact fun q hq => hkeep q fun he => h'.apart (p := q) (by simp [he]) hq
  · exact fun q hq => h'.apart (List.mem_cons_of_mem _ hq)
  · intro q
    rw [Memory.read_set]
    split
    · rename_i he
      rw [he]
      exact iff_of_false (fun hne => hne rfl)
        (not_or.mpr ⟨hn, h'.apart (p := n.1) List.mem_cons_self⟩)
    · rename_i he
      rw [h'.live_iff, pointers, List.map_cons, List.mem_cons]
      simp [he]
  · intro q hq
    rw [Memory.read_set] at hq
    split at hq
    · exact absurd rfl hq
    · exact h'.bounded q hq

/-- **Freeing a list** frees each of its cells once, and no cell of another list. -/
theorem Lists.freeChain : ∀ {l : List (Nat × α)} {m : Memory (Cell α)} {root : Option Nat}
    {fuel : Nat}, Lists m (root :: roots) (l :: lists) → l.length ≤ fuel →
      ∃ m', Linked.freeChain fuel root m = some m' ∧ Lists m' roots lists ∧ m'.top = m.top
  | [], m, root, fuel, h, _ => by
      obtain ⟨hroot, hchains⟩ := List.forall₂_cons.mp h.chains
      cases hroot
      refine ⟨m, by rw [Linked.freeChain], ⟨hchains, h.nodup, h.live, h.bounded⟩, rfl⟩
  | n :: l, m, root, 0, _, hfuel => absurd hfuel (Nat.not_succ_le_zero _)
  | n :: l, m, root, fuel + 1, h, hfuel => by
      obtain ⟨next, m₁, hread, hfree, h₁⟩ := h.free
      obtain ⟨m', hm', h', htop⟩ := h₁.freeChain (Nat.le_of_succ_le_succ hfuel)
      have htop₁ : m₁.top = m.top := by
        rw [Memory.free_of_read hread] at hfree
        cases hfree
        rfl
      obtain ⟨hroot, -⟩ := List.forall₂_cons.mp h.chains
      obtain ⟨rfl, -⟩ := hroot
      refine ⟨m', ?_, h', htop.trans htop₁⟩
      rw [Linked.freeChain, hread, Option.bind_some, hfree, Option.bind_some, hm']

/-- An empty list dropped. -/
theorem Lists.drop_nil (h : Lists m (above ++ root :: below) (before ++ [] :: after))
    (hlength : above.length = before.length) : Lists m (above ++ below) (before ++ after) := by
  obtain ⟨above₁, root₁, below₁, hroots, hlength₁, habove, -, hbelow⟩ := chains_split h.chains
  obtain ⟨rfl, hcons⟩ := List.append_inj hroots (hlength.trans hlength₁.symm)
  cases hcons
  have hcells : cellsIn (before ++ [] :: after) = cellsIn (before ++ after) := by simp
  exact ⟨List.rel_append habove hbelow, hcells ▸ h.nodup, hcells ▸ h.live, h.bounded⟩

theorem forall₂_set {β γ : Type} {R : β → γ → Prop} {a : β} {b : γ} (hab : R a b) {as : List β}
    {bs : List γ} (h : List.Forall₂ R as bs) :
    ∀ i : Nat, List.Forall₂ R (as.set i a) (bs.set i b) := by
  induction h with
  | nil => exact fun _ => .nil
  | cons hfirst hothers ih =>
    intro i
    cases i with
    | zero => exact .cons hab hothers
    | succ i => exact .cons hfirst (ih i)

theorem forall₂_getElem? {β γ : Type} {R : β → γ → Prop} {as : List β} {bs : List γ}
    (h : List.Forall₂ R as bs) :
    ∀ {i : Nat} {b : γ}, bs[i]? = some b → ∃ a, as[i]? = some a ∧ R a b := by
  induction h with
  | nil => intro i b hb; simp at hb
  | cons hfirst hothers ih =>
    intro i b hb
    cases i with
    | zero =>
      cases hb
      exact ⟨_, rfl, hfirst⟩
    | succ i => exact ih hb

/-- The cells with one of them at another place. -/
theorem cellsIn_move {c : List (Nat × α)} (before middle after : List (List (Nat × α)))
    (n : Nat × α) :
    (cellsIn (before ++ (n :: c) :: middle ++ l :: after)).Perm
      (cellsIn (before ++ c :: middle ++ (n :: l) :: after)) := by
  refine List.Perm.map _ ?_
  simp only [List.flatten_append, List.flatten_cons, List.append_assoc, List.cons_append]
  refine List.Perm.append_left _ ?_
  have hmiddle : (n :: (c ++ middle.flatten ++ (l ++ after.flatten))).Perm
      (c ++ middle.flatten ++ n :: (l ++ after.flatten)) := List.perm_middle.symm
  simpa only [List.append_assoc] using hmiddle

/-- **A cell moved to the front of another list**: the first cell of the list behind the
roots of the store. -/
theorem Lists.push {newLists rest : List (List (Nat × α))} {remaining : List (Option Nat)} {i : Nat}
    (h : Lists s.memory (s.roots ++ root :: remaining) (newLists ++ (n :: l) :: rest))
    (hlength : s.roots.length = newLists.length) (hi : i < newLists.length) :
    ∃ next s', s.memory.read n.1 = some ⟨n.2, next⟩ ∧ s.push i n.1 = some s' ∧
      Lists s'.memory (s'.roots ++ next :: remaining) (newLists.modify i (n :: ·) ++ l :: rest) ∧
      s'.roots.length = s.roots.length ∧ s'.memory.top = s.memory.top := by
  obtain ⟨before, c, after, rfl, rfl⟩ :
      ∃ before c after, newLists = before ++ c :: after ∧ i = before.length :=
    ⟨newLists.take i, newLists[i], newLists.drop (i + 1), by simp, by simp; omega⟩
  obtain ⟨above, root₁, below, hroots, hlength₁, habove, ⟨rfl, next, hread, hnext⟩, hbelow⟩ :=
    chains_split h.chains
  obtain ⟨rfl, hcons⟩ := List.append_inj hroots (hlength.trans hlength₁.symm)
  cases hcons
  -- without the cell every list keeps its cells, whatever is written to it
  have hperm := cellsIn_move (l := l) (c := c) before after rest n
  have hnodup := hperm.nodup_iff.mpr (by simpa using h.nodup)
  have hmoved : (cellsIn (before ++ (n :: c) :: after ++ l :: rest)).Perm
      (n.1 :: cellsIn (before ++ c :: after ++ l :: rest)) := by
    simp
  have hn := (List.nodup_cons.mp (hmoved.nodup_iff.mp hnodup)).1
  obtain ⟨r, hr, hc⟩ := forall₂_getElem? habove (i := before.length) (b := c) (by simp)
  have hothers : List.Forall₂
      (fun root l => IsList (s.memory.set n.1 (some ⟨n.2, r⟩)) root l none)
      (s.roots ++ next :: remaining) (before ++ c :: after ++ l :: rest) :=
    chains_congr (List.rel_append habove (.cons hnext hbelow))
      fun q hq => s.memory.read_set_of_ne n.1 _ fun he => hn (he ▸ hq)
  have hmodify : (before ++ c :: after).modify before.length (n :: ·) =
      before ++ (n :: c) :: after := by
    simp [List.modify_eq_take_drop]
  have hset : (s.roots ++ next :: remaining).set before.length (some n.1) =
      s.roots.set before.length (some n.1) ++ next :: remaining :=
    List.set_append_left _ _ (hlength ▸ by simp)
  have hlive : ∀ q, (s.memory.set n.1 (some ⟨n.2, r⟩)).read q ≠ none ↔ s.memory.read q ≠ none := by
    intro q
    rw [Memory.read_set]
    split
    · rename_i he
      simp [he, hread]
    · rfl
  refine ⟨next, ⟨s.memory.set n.1 (some ⟨n.2, r⟩), s.roots.set before.length (some n.1)⟩, hread, ?_,
    ⟨?_, ?_, ?_, ?_⟩, by simp, rfl⟩
  · rw [Store.push, hread, Option.bind_some, hr, Option.bind_some, Memory.write_of_read hread]
    rfl
  · have hfirst : IsList (s.memory.set n.1 (some ⟨n.2, r⟩)) (some n.1) (n :: c) none := by
      refine ⟨rfl, r, s.memory.read_set_self n.1 _, ?_⟩
      obtain ⟨r', hr', hc'⟩ := forall₂_getElem? hothers (i := before.length) (b := c) (by simp)
      rw [List.getElem?_append_left (hlength ▸ by simp), hr] at hr'
      cases hr'
      exact hc'
    have hchains := forall₂_set (R := fun root l => IsList _ root l none) hfirst hothers before.length
    rw [hset] at hchains
    simpa [hmodify] using hchains
  · rw [hmodify]
    exact hnodup
  · intro q
    rw [hlive, h.live, hmodify]
    simpa using hperm.mem_iff.symm
  · exact fun q hq => h.bounded q ((hlive q).mp hq)

end Lists
end Chttpc.Linked
