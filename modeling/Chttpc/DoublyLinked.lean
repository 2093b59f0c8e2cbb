import Mathlib.Data.List.Induction
import Mathlib.Data.List.Nodup
import Mathlib.Logic.Relation

/-!
# Doubly linked lists

Nodes are pointers `P`, and `next p` and `prev p` are the pointers stored in node `p`.
A list is given by its nodes and by the pointer its holder keeps, which is to the
first of them.  `IsList` says what the pointers are at every place of the list: the
next node, if there is one, and the node before, if there is one.

There are two ways to change a list, and each is stated for any new pointers that
differ from the old ones where they have to: a node is put in front
(`IsList.push`), and a node is taken out, wherever it is (`IsList.unlink`).
-/

namespace Chttpc.DoublyLinked
variable {P : Type}

/-- The pointers of the nodes make up the list, and `first` points at its first node. -/
structure IsList (next prev : P → Option P) (nodes : List P) (first : Option P) : Prop where
  nodup : nodes.Nodup
  head : first = nodes.head?
  next_eq : ∀ before p after, nodes = before ++ p :: after → next p = after.head?
  prev_eq : ∀ before p after, nodes = before ++ p :: after → prev p = before.getLast?

variable {next prev next' prev' : P → Option P} {nodes before after : List P}
  {first first' : Option P} {p q : P}

theorem IsList.empty (next prev : P → Option P) : IsList next prev [] none := by
  refine ⟨List.nodup_nil, rfl, ?_, ?_⟩
  · intro before p after h
    simp at h
  · intro before p after h
    simp at h

/-- A list depends on the pointers of its own nodes only. -/
theorem IsList.congr (h : IsList next prev nodes first) (hnext : ∀ p ∈ nodes, next' p = next p)
    (hprev : ∀ p ∈ nodes, prev' p = prev p) : IsList next' prev' nodes first where
  nodup := h.nodup
  head := h.head
  next_eq := by
    rintro before p after rfl
    exact (hnext p (by simp)).trans (h.next_eq before p after rfl)
  prev_eq := by
    rintro before p after rfl
    exact (hprev p (by simp)).trans (h.prev_eq before p after rfl)

/-- The pointers of a list lead to nodes of the list, -/
theorem IsList.next_mem (h : IsList next prev nodes first) (hp : p ∈ nodes)
    (hq : next p = some q) : q ∈ nodes := by
  obtain ⟨before, after, rfl⟩ := List.append_of_mem hp
  rw [h.next_eq before p after rfl] at hq
  have hmem := List.mem_of_head? hq
  simp [hmem]

theorem IsList.prev_mem (h : IsList next prev nodes first) (hp : p ∈ nodes)
    (hq : prev p = some q) : q ∈ nodes := by
  obtain ⟨before, after, rfl⟩ := List.append_of_mem hp
  rw [h.prev_eq before p after rfl] at hq
  have hmem := List.mem_of_getLast? hq
  simp [hmem]

/-- and they are inverse to each other. -/
theorem IsList.prev_of_next (h : IsList next prev nodes first) (hp : p ∈ nodes)
    (hq : next p = some q) : prev q = some p := by
  obtain ⟨before, after, rfl⟩ := List.append_of_mem hp
  rw [h.next_eq before p after rfl] at hq
  obtain ⟨rest, rfl⟩ := List.head?_eq_some_iff.mp hq
  have hat := h.prev_eq (before ++ [p]) q rest (by simp)
  rw [hat, List.getLast?_concat]

theorem IsList.next_of_prev (h : IsList next prev nodes first) (hp : p ∈ nodes)
    (hq : prev p = some q) : next q = some p := by
  obtain ⟨before, after, rfl⟩ := List.append_of_mem hp
  rw [h.prev_eq before p after rfl] at hq
  obtain ⟨front, rfl⟩ := List.getLast?_eq_some_iff.mp hq
  have hat := h.next_eq front q (p :: after) (by simp)
  rw [hat]
  rfl

theorem IsList.next_eq_some_iff (h : IsList next prev nodes first) (hp : p ∈ nodes)
    (hq : q ∈ nodes) : next p = some q ↔ prev q = some p :=
  ⟨h.prev_of_next hp, h.next_of_prev hq⟩

/-- Nothing is before the first node. -/
theorem IsList.prev_first (h : IsList next prev nodes first) (hp : first = some p) :
    prev p = none := by
  obtain ⟨after, rfl⟩ := List.head?_eq_some_iff.mp (h.head.symm.trans hp)
  exact h.prev_eq [] p after rfl

/-- A node stands in one place only, -/
theorem IsList.not_mem_others (h : IsList next prev (before ++ p :: after) first) :
    p ∉ before ++ after := by
  have hnodup := h.nodup
  rw [List.mem_append]
  rintro (hbefore | hafter)
  · exact (List.nodup_append.mp hnodup).2.2 p hbefore p List.mem_cons_self rfl
  · exact (List.nodup_cons.mp (List.nodup_append.mp hnodup).2.1).1 hafter

/-- and does not point at itself. -/
theorem IsList.next_ne_self (h : IsList next prev nodes first) (hp : p ∈ nodes) :
    next p ≠ some p := by
  obtain ⟨before, after, rfl⟩ := List.append_of_mem hp
  rw [h.next_eq before p after rfl]
  intro hhead
  exact h.not_mem_others (List.mem_append_right _ (List.mem_of_head? hhead))

/-- **From the first node on, `next` leads through the nodes of the list.** -/
theorem IsList.reaches_iff (h : IsList next prev nodes first) (p : P) :
    (∃ start, first = some start ∧ Relation.ReflTransGen (fun a b => next a = some b) start p) ↔
      p ∈ nodes := by
  constructor
  · rintro ⟨start, hstart, hpath⟩
    induction hpath with
    | refl => exact List.mem_of_head? (h.head.symm.trans hstart)
    | tail _ hstep ih => exact h.next_mem ih hstep
  · intro hp
    obtain ⟨before, after, rfl⟩ := List.append_of_mem hp
    -- the nodes before `p`, from the last one back
    induction before using List.reverseRecOn generalizing p after with
    | nil => exact ⟨p, h.head, .refl⟩
    | append_singleton front q ih =>
      have hlist : front ++ [q] ++ p :: after = front ++ q :: (p :: after) := by simp
      obtain ⟨start, hstart, hpath⟩ := ih q (p :: after) (hlist ▸ h) (by simp)
      exact ⟨start, hstart, hpath.tail (h.next_eq front q (p :: after) hlist)⟩

/-- **Putting a node in front.** -/
theorem IsList.push [DecidableEq P] (h : IsList next prev nodes first) (hp : p ∉ nodes)
    (hnext : next' p = first) (hprev : prev' p = none) (hkeeps : ∀ q ∈ nodes, next' q = next q)
    (hback : ∀ q ∈ nodes, prev' q = if first = some q then some p else prev q) :
    IsList next' prev' (p :: nodes) (some p) where
  nodup := List.nodup_cons.mpr ⟨hp, h.nodup⟩
  head := rfl
  next_eq := by
    intro before q after hlist
    cases before with
    | nil =>
      obtain ⟨rfl, rfl⟩ := List.cons.inj hlist
      exact hnext.trans h.head
    | cons b before =>
      obtain ⟨rfl, rfl⟩ := List.cons.inj hlist
      exact (hkeeps q (by simp)).trans (h.next_eq before q after rfl)
  prev_eq := by
    intro before q after hlist
    cases before with
    | nil =>
      obtain ⟨rfl, rfl⟩ := List.cons.inj hlist
      exact hprev
    | cons b before =>
      obtain ⟨rfl, rfl⟩ := List.cons.inj hlist
      rw [hback q (by simp), h.head]
      cases before with
      | nil => simp
      | cons c before =>
        -- `q` is not the first node, because no node stands in two places
        have hne : c ≠ q := by
          rintro rfl
          have hnodup := h.nodup
          simp at hnodup
        rw [if_neg (by simpa using hne), h.prev_eq (c :: before) q after rfl]
        rfl

/-- The place of a node of a list from which another node has been taken out. -/
theorem place_of_unlinked {b a : List P} (hlist : before ++ after = b ++ q :: a) :
    (∃ m, before = b ++ q :: m ∧ a = m ++ after) ∨ (∃ m, b = before ++ m ∧ after = m ++ q :: a) := by
  rcases List.append_eq_append_iff.mp hlist with ⟨m, rfl, rfl⟩ | ⟨m, rfl, hm⟩
  · exact .inr ⟨m, rfl, rfl⟩
  · cases m with
    | nil => exact .inr ⟨[], by simp, by simpa using hm.symm⟩
    | cons c m =>
      obtain ⟨rfl, rfl⟩ := List.cons.inj hm
      exact .inl ⟨m, rfl, rfl⟩

/-- Behind a node of the list without `p` stands what its `next` becomes. -/
theorem IsList.next_unlinked [DecidableEq P] (h : IsList next prev (before ++ p :: after) first)
    {b a : List P} (hlist : before ++ after = b ++ q :: a) :
    (if prev p = some q then next p else next q) = a.head? := by
  have hnodup := h.nodup
  rw [h.prev_eq before p after rfl, h.next_eq before p after rfl]
  rcases place_of_unlinked hlist with ⟨m, rfl, rfl⟩ | ⟨m, rfl, rfl⟩
  · rw [h.next_eq b q (m ++ p :: after) (by simp)]
    cases m with
    | nil => simp
    | cons c m =>
      have hne : (c :: m).getLast? ≠ some q := by
        intro hlast
        have hmem := List.mem_of_getLast? hlast
        simp only [List.append_assoc, List.cons_append] at hnodup
        have hnot := (List.nodup_cons.mp (List.nodup_append.mp hnodup).2.1).1
        exact hnot (List.mem_append_left _ hmem)
      have hlast : (b ++ q :: c :: m).getLast? = (c :: m).getLast? := by
        rw [List.getLast?_append_of_ne_nil _ (by simp), List.getLast?_cons_cons]
      rw [hlast, if_neg hne]
      rfl
  · have hne : before.getLast? ≠ some q := by
      intro hlast
      have hmem := List.mem_of_getLast? hlast
      exact (List.nodup_append.mp hnodup).2.2 q hmem q (by simp) rfl
    rw [if_neg hne]
    exact h.next_eq (before ++ p :: m) q a (by simp)

/-- Before a node of the list without `p` stands what its `prev` becomes. -/
theorem IsList.prev_unlinked [DecidableEq P] (h : IsList next prev (before ++ p :: after) first)
    {b a : List P} (hlist : before ++ after = b ++ q :: a) :
    (if next p = some q then prev p else prev q) = b.getLast? := by
  have hnodup := h.nodup
  rw [h.prev_eq before p after rfl, h.next_eq before p after rfl]
  rcases place_of_unlinked hlist with ⟨m, rfl, rfl⟩ | ⟨m, rfl, rfl⟩
  · have hne : after.head? ≠ some q := by
      intro hhead
      have hmem := List.mem_of_head? hhead
      refine (List.nodup_append.mp hnodup).2.2 q (by simp) q ?_ rfl
      simp [hmem]
    rw [if_neg hne]
    exact h.prev_eq b q (m ++ p :: after) (by simp)
  · rw [h.prev_eq (before ++ p :: m) q a (by simp)]
    cases m with
    | nil => simp
    | cons c m =>
      have hne : (c :: m ++ q :: a).head? ≠ some q := by
        intro hhead
        have hcq : c = q := by simpa using hhead
        subst hcq
        have hnot := (List.nodup_cons.mp
          (List.nodup_cons.mp (List.nodup_append.mp hnodup).2.1).2).1
        exact hnot (by simp)
      rw [if_neg hne, List.getLast?_append_of_ne_nil _ (by simp),
        List.getLast?_append_of_ne_nil _ (by simp), List.getLast?_cons_cons]

/-- **Taking a node out**: the node before it, if there is one, takes over its `next`, the
node behind it takes over its `prev`, and the holder follows if it was the first node. -/
theorem IsList.unlink [DecidableEq P] (h : IsList next prev (before ++ p :: after) first)
    (hfirst : first' = if first = some p then next p else first)
    (hnext : ∀ q ∈ before ++ after, next' q = if prev p = some q then next p else next q)
    (hprev : ∀ q ∈ before ++ after, prev' q = if next p = some q then prev p else prev q) :
    IsList next' prev' (before ++ after) first' := by
  have hnodup := h.nodup
  refine ⟨hnodup.sublist ?_, ?_, ?_, ?_⟩
  · exact (List.sublist_cons_self p after).append_left before
  · rw [hfirst, h.head, h.next_eq before p after rfl]
    cases before with
    | nil => simp
    | cons b before =>
      have hne : b ≠ p := by
        rintro rfl
        simp at hnodup
      rw [if_neg (by simpa using hne)]
      rfl
  · intro b q a hlist
    exact (hnext q (by rw [hlist]; simp)).trans (h.next_unlinked hlist)
  · intro b q a hlist
    exact (hprev q (by rw [hlist]; simp)).trans (h.prev_unlinked hlist)

end Chttpc.DoublyLinked
