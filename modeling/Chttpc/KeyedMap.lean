import Mathlib.Data.List.Perm.Basic
import Mathlib.Data.Set.Card

/-!
# Maps with one value for each class of keys

Keys that are equivalent are one key, so a map is a partial function on the classes of an
equivalence.  A list of associations stands for a map (`denote`): a class has the value of
the first association whose key is in it.  If no two keys of the list are equivalent
(`Distinct`), the order of the list does not matter, and the changes of a list are changes
of the map in one place: an association more (`denote_cons`), another value in the place of
one (`denote_replace`), one taken out (`denote_erase`).

`ε` is the type of the associations, with `key` and `value`.
-/

namespace Chttpc.KeyedMap
variable {κ ν ε : Type} (s : Setoid κ) (key : ε → κ) (value : ε → ν)

/-- A value at most for each class of keys. -/
abbrev Map (s : Setoid κ) (ν : Type) : Type := Quotient s → Option ν

/-- No two associations have equivalent keys. -/
def Distinct (l : List ε) : Prop := l.Pairwise fun a b => ¬ s (key a) (key b)

open Classical in
/-- The map of a list. -/
noncomputable def denote (l : List ε) : Map s ν := fun q =>
  (l.find? fun e => decide (Quotient.mk s (key e) = q)).map value

open Classical in
/-- A map with another value for one class, or none. -/
noncomputable def assign (m : Map s ν) (q : Quotient s) (v : Option ν) : Map s ν :=
  fun r => if r = q then v else m r

/-- The classes that have a value. -/
def bound (m : Map s ν) : Set (Quotient s) := {q | m q ≠ none}

variable {s key value} {l l' front rest : List ε} {e e' : ε} {q : Quotient s} {v : ν}

@[simp] theorem assign_self (m : Map s ν) (q : Quotient s) (v : Option ν) :
    assign s m q v q = v := if_pos rfl

theorem assign_of_ne {m : Map s ν} {q r : Quotient s} (h : r ≠ q) (v : Option ν) :
    assign s m q v r = m r := if_neg h

/-- Only the last value counts. -/
theorem assign_assign (m : Map s ν) (q : Quotient s) (v w : Option ν) :
    assign s (assign s m q v) q w = assign s m q w := by
  funext r
  by_cases hr : r = q
  · rw [hr, assign_self, assign_self]
  · rw [assign_of_ne hr, assign_of_ne hr, assign_of_ne hr]

@[simp] theorem denote_nil : denote s key value [] = fun _ => none := rfl

theorem mk_eq_iff {a b : κ} : Quotient.mk s a = Quotient.mk s b ↔ s a b := Quotient.eq

theorem denote_cons (e : ε) (l : List ε) :
    denote s key value (e :: l) =
      assign s (denote s key value l) (Quotient.mk s (key e)) (some (value e)) := by
  funext q
  by_cases hq : Quotient.mk s (key e) = q
  · subst hq
    simp [denote]
  · rw [assign_of_ne (Ne.symm hq)]
    simp [denote, hq]

theorem denote_eq_none_iff :
    denote s key value l q = none ↔ ∀ e ∈ l, Quotient.mk s (key e) ≠ q := by
  simp [denote]

/-- What a class has is the value of an association. -/
theorem exists_of_denote (h : denote s key value l q = some v) :
    ∃ e ∈ l, Quotient.mk s (key e) = q ∧ value e = v := by
  obtain ⟨e, hfind, hvalue⟩ := Option.map_eq_some_iff.mp h
  exact ⟨e, List.mem_of_find?_eq_some hfind, by simpa using List.find?_some hfind, hvalue⟩

theorem Distinct.perm (h : Distinct s key l) (hl : l.Perm l') : Distinct s key l' :=
  (hl.pairwise_iff fun hab hba => hab (Setoid.symm hba)).mp h

theorem Distinct.sublist (h : Distinct s key l) (hl : l'.Sublist l) : Distinct s key l' :=
  List.Pairwise.sublist hl h

/-- An association stands alone in its class. -/
theorem Distinct.eq_of_mem (h : Distinct s key l) (he : e ∈ l) (he' : e' ∈ l)
    (hkey : s (key e) (key e')) : e = e' := by
  have hapart : l.Pairwise fun a b => a ≠ b → ¬ s (key a) (key b) := by
    refine List.Pairwise.imp ?_ h
    intro a b hab _
    exact hab
  have hsymm : Std.Symm fun a b => a ≠ b → ¬ s (key a) (key b) :=
    ⟨fun a b hab hne hba => hab (Ne.symm hne) (Setoid.symm hba)⟩
  by_contra hne
  exact hapart.forall_of_forall (fun x _ hxx => absurd rfl hxx) he he' hne hkey

theorem Distinct.denote_mem (h : Distinct s key l) (he : e ∈ l) :
    denote s key value l (Quotient.mk s (key e)) = some (value e) := by
  cases hd : denote s key value l (Quotient.mk s (key e)) with
  | none => exact absurd rfl (denote_eq_none_iff.mp hd e he)
  | some v =>
    obtain ⟨e', he', hkey, rfl⟩ := exists_of_denote hd
    rw [h.eq_of_mem he' he (mk_eq_iff.mp hkey)]

theorem Distinct.denote_eq_some_iff (h : Distinct s key l) :
    denote s key value l q = some v ↔ ∃ e ∈ l, Quotient.mk s (key e) = q ∧ value e = v := by
  constructor
  · exact exists_of_denote
  · rintro ⟨e, he, rfl, rfl⟩
    exact h.denote_mem he

/-- **The order of the associations does not matter.** -/
theorem Distinct.denote_perm (h : Distinct s key l) (hl : l.Perm l') :
    denote s key value l' = denote s key value l := by
  funext q
  refine Option.ext fun v => ?_
  rw [(h.perm hl).denote_eq_some_iff, h.denote_eq_some_iff]
  simp only [hl.mem_iff]

theorem distinct_cons : Distinct s key (e :: l) ↔
    (∀ x ∈ l, ¬ s (key e) (key x)) ∧ Distinct s key l := List.pairwise_cons

/-- Another association with the same key, in the place of one. -/
theorem Distinct.replace (h : Distinct s key (front ++ e :: rest)) (hkey : key e' = key e) :
    Distinct s key (front ++ e' :: rest) := by
  have hperm := distinct_cons.mp (h.perm List.perm_middle)
  refine Distinct.perm ?_ List.perm_middle.symm
  rw [distinct_cons, hkey]
  exact hperm

theorem Distinct.denote_replace (h : Distinct s key (front ++ e :: rest)) (hkey : key e' = key e) :
    denote s key value (front ++ e' :: rest) =
      assign s (denote s key value (front ++ e :: rest)) (Quotient.mk s (key e))
        (some (value e')) := by
  rw [← (h.replace hkey).denote_perm List.perm_middle, ← h.denote_perm List.perm_middle,
    denote_cons, denote_cons, hkey, assign_assign]

theorem Distinct.erase (h : Distinct s key (front ++ e :: rest)) : Distinct s key (front ++ rest) :=
  (distinct_cons.mp (h.perm List.perm_middle)).2

/-- Without the association its class has no value. -/
theorem Distinct.denote_erase (h : Distinct s key (front ++ e :: rest)) :
    denote s key value (front ++ rest) =
      assign s (denote s key value (front ++ e :: rest)) (Quotient.mk s (key e)) none := by
  have hfree : denote s key value (front ++ rest) (Quotient.mk s (key e)) = none := by
    refine denote_eq_none_iff.mpr fun x hx hmk => ?_
    exact (distinct_cons.mp (h.perm List.perm_middle)).1 x hx (Setoid.symm (mk_eq_iff.mp hmk))
  rw [← h.denote_perm List.perm_middle, denote_cons]
  funext q
  by_cases hq : q = Quotient.mk s (key e)
  · rw [hq, hfree, assign_self]
  · rw [assign_of_ne hq, assign_of_ne hq]

/-- **There are as many classes with a value as associations.** -/
theorem Distinct.ncard_bound (h : Distinct s key l) :
    (bound s (denote s key value l)).ncard = l.length := by
  have hbound : bound s (denote s key value l) =
      {q | q ∈ l.map fun e => Quotient.mk s (key e)} := by
    ext q
    show denote s key value l q ≠ none ↔ q ∈ l.map fun e => Quotient.mk s (key e)
    rw [Ne, denote_eq_none_iff, List.mem_map]
    push Not
    rfl
  have hnodup : (l.map fun e => Quotient.mk s (key e)).Nodup :=
    List.pairwise_map.mpr (h.imp fun hab hmk => hab (mk_eq_iff.mp hmk))
  classical
  have hset : {q | q ∈ l.map fun e => Quotient.mk s (key e)} =
      ↑(l.map fun e => Quotient.mk s (key e)).toFinset := by
    ext q
    simp
  rw [hbound, hset, Set.ncard_coe_finset, List.toFinset_card_of_nodup hnodup, List.length_map]

end Chttpc.KeyedMap
