import Mathlib.Data.List.Chain

/-!
# Circular singly linked lists

Nodes are pointers `P`; `next p` is the pointer stored in node `p`, if that node
has one.  A ring is given by its nodes from the oldest to the newest together
with the newest, which is the node a holder of the ring keeps: the newest node
points back at the oldest, so the list is recovered by one traversal that starts
behind the holder's node.

A node is appended by three pointer writes (`IsRing.splice`), which leave every
ring that does not contain the written nodes alone (`IsRing.congr`).  `walk` is
the traversal a program makes, a `do … while` loop that stops on coming back to
its first node; on a ring it stops, after exactly the nodes of the ring
(`IsRing.walk_eq`).
-/

namespace Chttpc.CircularList
variable {P : Type}

/-- `l` lists, from the oldest to the newest, the nodes of a ring held by its
newest node `last`. -/
structure IsRing (next : P → Option P) (l : List P) (last : P) : Prop where
  nodup : l.Nodup
  chain : l.IsChain (fun a b => next a = some b)
  newest : l.getLast? = some last
  back : next last = l.head?

variable {next next' : P → Option P} {l : List P} {first last v : P}

theorem IsRing.last_mem (h : IsRing next l last) : last ∈ l :=
  List.mem_of_getLast? h.newest

/-- Every node of a ring has a pointer. -/
theorem IsRing.next_isSome (h : IsRing next l last) : ∀ a ∈ l, (next a).isSome = true := by
  intro a ha
  obtain ⟨s, t, rfl⟩ := List.append_of_mem ha
  cases t with
  | nil =>
    have hlast : a = last := by simpa using h.newest
    rw [hlast, h.back]
    cases s <;> rfl
  | cons b t =>
    have hab : next a = some b := (List.isChain_cons_cons.mp h.chain.right_of_append).1
    rw [hab]
    rfl

theorem IsRing.singleton (h : next v = some v) : IsRing next [v] v :=
  ⟨by simp, List.isChain_singleton v, rfl, h⟩

/-- A ring depends on the pointers of its own nodes only. -/
theorem IsRing.congr (h : IsRing next l last) (hn : ∀ a ∈ l, next' a = next a) :
    IsRing next' l last where
  nodup := h.nodup
  chain := h.chain.imp_of_mem_imp fun a _ ha _ hab => (hn a ha).trans hab
  newest := h.newest
  back := (hn last h.last_mem).trans h.back

/-- **Appending a node.**  The new node takes the pointer of the newest node, and
the newest node then points at it. -/
theorem IsRing.splice (h : IsRing next l last) (hv : v ∉ l) (hnew : next' v = next last)
    (hlast : next' last = some v) (hn : ∀ a ∈ l, a ≠ last → next' a = next a) :
    IsRing next' (l ++ [v]) v where
  nodup := by
    refine List.nodup_append.mpr ⟨h.nodup, by simp, ?_⟩
    intro a ha b hb hab
    exact hv (List.mem_singleton.mp hb ▸ hab ▸ ha)
  chain := by
    obtain ⟨front, rfl⟩ : ∃ front, l = front ++ [last] := List.getLast?_eq_some_iff.mp h.newest
    rw [List.append_assoc]
    refine List.isChain_append.mpr ⟨?_, ?_, ?_⟩
    · refine h.chain.left_of_append.imp_of_mem_imp fun a b ha _ hab => ?_
      have hne : a ≠ last := fun he =>
        (List.nodup_append.mp h.nodup).2.2 a ha last (List.mem_singleton_self _) he
      exact (hn a (List.mem_append_left _ ha) hne).trans hab
    · exact List.isChain_pair.mpr hlast
    · intro a ha b hb
      have hab : next a = some b := (List.isChain_append.mp h.chain).2.2 a ha b (by simpa using hb)
      have ham : a ∈ front := List.mem_of_getLast? ha
      have hne : a ≠ last := fun he =>
        (List.nodup_append.mp h.nodup).2.2 a ham last (List.mem_singleton_self _) he
      exact (hn a (List.mem_append_left _ ham) hne).trans hab
  newest := by simp
  back := by
    rw [hnew, h.back, List.head?_append_of_ne_nil]
    exact List.ne_nil_of_mem h.last_mem

/-- The `do … while` traversal: visit `p`, follow its pointer, stop on reaching
`first` again.  `fuel` bounds the number of nodes visited. -/
def walk [DecidableEq P] (next : P → Option P) (first : P) : Nat → P → Option (List P)
  | 0, _ => none
  | fuel + 1, p =>
      match next p with
      | none => none
      | some q => if q = first then some [p] else (walk next first fuel q).map (p :: ·)

/-- From any node of the ring on, the traversal visits the rest of the ring. -/
theorem walk_suffix [DecidableEq P] (hback : next last = some first) :
    ∀ (fuel : Nat) (p : P) (s : List P), (p :: s).IsChain (fun a b => next a = some b) →
      (p :: s).getLast? = some last → first ∉ s → s.length < fuel →
      walk next first fuel p = some (p :: s)
  | 0, _, _, _, _, _, hf => absurd hf (Nat.not_lt_zero _)
  | fuel + 1, p, [], _, hl, _, _ => by
      have hp : p = last := by simpa using hl
      simp [walk, hp, hback]
  | fuel + 1, p, q :: s, hc, hl, hfirst, hf => by
      obtain ⟨hpq, hqs⟩ := List.isChain_cons_cons.mp hc
      have hq : q ≠ first := fun he => hfirst (he ▸ List.mem_cons_self)
      have ih := walk_suffix hback fuel q s hqs (by simpa using hl)
        (fun hm => hfirst (List.mem_cons_of_mem _ hm)) (by simpa using hf)
      simp [walk, hpq, hq, ih]

/-- **On a ring the traversal comes back to its start after exactly the nodes of
the ring**, oldest first, as soon as `fuel` covers them. -/
theorem IsRing.walk_eq [DecidableEq P] (h : IsRing next l last) {fuel : Nat}
    (hf : l.length ≤ fuel) :
    ∃ first, next last = some first ∧ walk next first fuel first = some l := by
  cases l with
  | nil => exact absurd h.last_mem List.not_mem_nil
  | cons first s =>
    refine ⟨first, h.back, ?_⟩
    exact walk_suffix h.back fuel first s h.chain h.newest (List.nodup_cons.mp h.nodup).1
      (Nat.lt_of_succ_le hf)

end Chttpc.CircularList
