import Chttpc.Hashmap
import Mathlib.Data.List.Forall2

/-!
# Two tables with corresponding entries

A table moves its entries about by their hashes alone and finds them by a test.  So two
tables with entries that correspond, chain by chain, go on corresponding whatever is done
to both of them, as long as the correspondence respects hashes and the test gives the same
answers.  The entries may have keys and values of different kinds.

`Related` says that the chains correspond; there is one lemma for each operation.
-/

namespace Chttpc

section Lists
variable {α β : Type} {R : α → β → Prop} {l : List α} {l' : List β}

theorem forall₂_modify {f : α → α} {g : β → β} (hf : ∀ a b, R a b → R (f a) (g b))
    (h : List.Forall₂ R l l') : ∀ i, List.Forall₂ R (l.modify i f) (l'.modify i g) := by
  induction h with
  | nil => exact fun i => by cases i <;> exact .nil
  | @cons a b l l' hab hl ih =>
    intro i
    cases i with
    | zero => exact .cons (hf a b hab) hl
    | succ i => exact .cons hab (ih i)

/-- The first element that passes a test. -/
theorem rel_find? {p : α → Bool} {q : β → Bool} (hpq : ∀ a b, R a b → p a = q b)
    (h : List.Forall₂ R l l') : Option.Rel R (l.find? p) (l'.find? q) := by
  induction h with
  | nil => exact .none
  | @cons a b l l' hab _ ih =>
    rw [List.find?_cons, List.find?_cons, hpq a b hab]
    cases q b with
    | true => exact .some hab
    | false => exact ih

theorem findIdx?_eq_of_forall₂ {p : α → Bool} {q : β → Bool} (hpq : ∀ a b, R a b → p a = q b)
    (h : List.Forall₂ R l l') : l.findIdx? p = l'.findIdx? q := by
  induction h with
  | nil => rfl
  | @cons a b l l' hab _ ih => rw [List.findIdx?_cons, List.findIdx?_cons, hpq a b hab, ih]

theorem rel_getElem? (h : List.Forall₂ R l l') : ∀ i : Nat, Option.Rel R l[i]? l'[i]? := by
  induction h with
  | nil => exact fun _ => .none
  | @cons a b l l' hab _ ih =>
    intro i
    cases i with
    | zero => exact .some hab
    | succ i => simpa using ih i

end Lists

namespace Hashmap
variable {κ κ' ν ν' : Type}

/-- The entries of the two tables correspond, chain by chain. -/
structure Related (r : Entry κ ν → Entry κ' ν' → Prop) (map : Hashmap κ ν)
    (map' : Hashmap κ' ν') : Prop where
  buckets : List.Forall₂ (List.Forall₂ r) map.buckets map'.buckets
  size : map.size = map'.size

section Related
variable {r : Entry κ ν → Entry κ' ν' → Prop} {map : Hashmap κ ν} {map' : Hashmap κ' ν'}

theorem Related.bucketCount (h : Related r map map') : map.bucketCount = map'.bucketCount :=
  h.buckets.length_eq

theorem Related.entries (h : Related r map map') : List.Forall₂ r map.entries map'.entries :=
  List.rel_flatten h.buckets

/-- Two tables without entries. -/
theorem forall₂_replicate_nil (n : Nat) : List.Forall₂ (List.Forall₂ r)
    (List.replicate n []) (List.replicate n []) := by
  induction n with
  | zero => exact .nil
  | succ n ih => exact .cons .nil ih

theorem related_hashmapClear (h : map.bucketCount = map'.bucketCount) :
    Related r map.hashmapClear map'.hashmapClear where
  buckets := by
    rw [hashmapClear, hashmapClear, h]
    exact forall₂_replicate_nil _
  size := rfl

/-- A table whose scan is empty is as good as cleared. -/
theorem buckets_of_entries_nil (h : map.entries = []) :
    map.buckets = List.replicate map.bucketCount [] :=
  List.eq_replicate_of_mem fun c hc => List.flatten_eq_nil_iff.mp h c hc

theorem Related.chain (h : Related r map map') (i : Nat) :
    List.Forall₂ r (map.chain i) (map'.chain i) := by
  have hchain := rel_getElem? h.buckets i
  unfold Hashmap.chain
  rw [List.getD_eq_getElem?_getD, List.getD_eq_getElem?_getD]
  generalize map.buckets[i]? = found, map'.buckets[i]? = found' at hchain
  cases hchain with
  | none => exact .nil
  | some hc => exact hc

theorem Related.entryAt (h : Related r map map') (ref : EntryRef) :
    Option.Rel r (map.entryAt ref) (map'.entryAt ref) :=
  rel_getElem? (h.chain ref.bucket) ref.pos

/-- The growth of a table looks at hashes only. -/
theorem Related.expandIfNecessary (hr : ∀ e e', r e e' → e.hash = e'.hash) (callocOk : Bool)
    (h : Related r map map') :
    Related r (expandIfNecessary callocOk map) (expandIfNecessary callocOk map') := by
  unfold Hashmap.expandIfNecessary
  rw [h.bucketCount, h.size]
  split
  · split
    · refine ⟨?_, rfl⟩
      -- entry by entry, in the order of the old chains
      refine List.rel_foldl (fun nb nb' hnb c c' hc => ?_) (forall₂_replicate_nil _) h.buckets
      refine List.rel_foldl (fun nb nb' hnb e e' he => ?_) hnb hc
      rw [place, place, hr e e' he]
      exact forall₂_modify (fun _ _ hchain => .cons he hchain) hnb _
    · exact h
  · exact h

theorem Related.setValue {value : ν} {value' : ν'}
    (hr : ∀ e e', r e e' → r { e with value } { e' with value := value' }) (h : Related r map map')
    (ref : EntryRef) : Related r (map.setValue ref value) (map'.setValue ref value') where
  buckets := forall₂_modify (fun _ _ hc => forall₂_modify hr hc ref.pos) h.buckets ref.bucket
  size := h.size

section Lookup
variable [BEq κ] [BEq κ'] {key : κ} {key' : κ'}

/-- The two keys have one hash, and corresponding entries answer to both or to neither. -/
structure SameTest (r : Entry κ ν → Entry κ' ν' → Prop) (map : Hashmap κ ν) (map' : Hashmap κ' ν')
    (key : κ) (key' : κ') : Prop where
  hashKey : map.hashKey key = map'.hashKey key'
  found : ∀ e ∈ map.entries, ∀ e' ∈ map'.entries, r e e' →
    map.found key e = map'.found key' e'

theorem SameTest.indexOf (ht : SameTest r map map' key key') (h : Related r map map') :
    map.indexOf key = map'.indexOf key' := by
  rw [Hashmap.indexOf, Hashmap.indexOf, h.bucketCount, ht.hashKey]

omit [BEq κ] in
theorem mem_entries_of_mem_chain {i : Nat} {e : Entry κ ν} (h : e ∈ map.chain i) :
    e ∈ map.entries := by
  unfold Hashmap.chain at h
  rw [List.getD_eq_getElem?_getD] at h
  cases hi : map.buckets[i]? with
  | none =>
    rw [hi] at h
    cases h
  | some c =>
    rw [hi] at h
    exact List.mem_flatten.mpr ⟨c, List.mem_of_getElem? hi, h⟩

/-- The chains in which the two keys are looked up, with the test made to agree. -/
theorem Related.chain_indexOf (h : Related r map map') (ht : SameTest r map map' key key') :
    List.Forall₂ (fun e e' => r e e' ∧ map.found key e = map'.found key' e')
      (map.chain (map.indexOf key)) (map'.chain (map'.indexOf key')) := by
  rw [ht.indexOf h]
  have hchain := h.chain (map'.indexOf key')
  refine List.forall₂_iff_zip.mpr ⟨hchain.length_eq, fun {e e'} hmem => ?_⟩
  have hr := List.forall₂_zip hchain hmem
  exact ⟨hr, ht.found e (mem_entries_of_mem_chain (List.of_mem_zip hmem).1) e'
    (mem_entries_of_mem_chain (List.of_mem_zip hmem).2) hr⟩

theorem Related.entryGet (h : Related r map map') (ht : SameTest r map map' key key') :
    map.entryGet key = map'.entryGet key' := by
  rw [Hashmap.entryGet, Hashmap.entryGet, Hashmap.position, Hashmap.position,
    findIdx?_eq_of_forall₂ (fun _ _ hr => hr.2) (h.chain_indexOf ht), ht.indexOf h]

/-- The entries found by the two keys. -/
theorem Related.find (h : Related r map map') (ht : SameTest r map map' key key') :
    Option.Rel r ((map.chain (map.indexOf key)).find? (map.found key))
      ((map'.chain (map'.indexOf key')).find? (map'.found key')) := by
  have hrel := rel_find? (fun _ _ hr => hr.2) (h.chain_indexOf ht)
  generalize (map.chain (map.indexOf key)).find? (map.found key) = e,
    (map'.chain (map'.indexOf key')).find? (map'.found key') = e' at hrel ⊢
  cases hrel with
  | none => exact .none
  | some hr => exact .some hr.1

theorem Related.hashmapPut_absent (hr : ∀ e e', r e e' → e.hash = e'.hash) (entryOk callocOk : Bool)
    {value : ν} {value' : ν'} (h : Related r map map') (ht : SameTest r map map' key key')
    (hnone : map.entryGet key = none)
    (hnew : r (map.newEntry key value) (map'.newEntry key' value')) :
    Related r (map.hashmapPut key entryOk callocOk value).1
      (map'.hashmapPut key' entryOk callocOk value').1 := by
  have hnone' : map'.entryGet key' = none := (h.entryGet ht).symm.trans hnone
  simp only [hashmapPut, hnone, hnone']
  split
  · refine Related.expandIfNecessary hr callocOk ⟨?_, congrArg (· + 1) h.size⟩
    rw [ht.indexOf h]
    refine forall₂_modify (fun c c' hc => ?_) h.buckets _
    exact List.rel_append hc (.cons hnew .nil)
  · exact h

end Lookup
end Related
end Hashmap
end Chttpc
