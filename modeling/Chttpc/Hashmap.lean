import Mathlib.Algebra.Group.Int.Defs
import Mathlib.Algebra.GroupWithZero.Nat
import Mathlib.Data.List.Perm.Basic

/-!
# The chained hash table of `hashmap.c`

A table has a power-of-two number of buckets, each a chain of entries; an entry
carries its key, the secondary hash of the key and its value.  `hash` and
`equals` are fields of the table, as in `struct Hashmap`, and every statement
below holds for any two functions: nothing is assumed of the comparison, which
may be neither symmetric nor reflexive.

Keys are pointers.  `==` on keys is equality of the pointers, the test
`equalKeys` makes before it looks at hashes.  An entry is addressed by its
bucket and its position in the chain (`EntryRef`), which is what an `Entry*`
is as long as the table is not rebuilt.

`WellFormed` is the invariant of the table: every entry lies in the bucket its
hash selects, carries the hash of its key, and `size` counts the entries.  The
operations keep it, and each says what it does to `entries`, the scan of the
buckets: `setValue` changes one entry in place, `hashmapPut` of an absent key
adds one entry up to the order of the scan, whatever the growth of the table
does.
-/

namespace Chttpc

/-- `struct Entry`; `next` is the rest of the chain. -/
structure Entry (κ ν : Type) where
  key : κ
  hash : BitVec 32
  value : ν

/-- `struct Hashmap`; `bucketCount` is the length of `buckets`. -/
structure Hashmap (κ ν : Type) where
  buckets : List (List (Entry κ ν))
  hash : κ → BitVec 32
  equals : κ → κ → Bool
  size : Nat

/-- Where an `Entry*` points: a bucket and a position in its chain. -/
structure EntryRef where
  bucket : Nat
  pos : Nat
  deriving DecidableEq, Repr

namespace Hashmap
variable {κ ν : Type}

def bucketCount (map : Hashmap κ ν) : Nat := map.buckets.length

/-- The chain of a bucket. -/
def chain (map : Hashmap κ ν) (index : Nat) : List (Entry κ ν) := map.buckets.getD index []

/-- The scan of the buckets, in the order a caller that walks the table meets
the entries. -/
def entries (map : Hashmap κ ν) : List (Entry κ ν) := map.buckets.flatten

/-- `initialCapacity * 4 / 3`, in a `size_t` of the width. -/
def minimumBucketCount (width initialCapacity : Nat) : Nat := initialCapacity * 4 % 2 ^ width / 3

/-- The doubling loop of `hashmapCreate`.  The count is no more than twice the minimum, which
is below a third of `2 ^ width`, so the shift does not wrap around. -/
def bucketsFor (minimumBucketCount : Nat) : Nat → Nat → Nat
  | 0, count => count
  | fuel + 1, count =>
      if count ≤ minimumBucketCount then bucketsFor minimumBucketCount fuel (count <<< 1) else count

/-- `hashmapCreate`, with its allocations succeeding. -/
def hashmapCreate (width initialCapacity : Nat) (hash : κ → BitVec 32) (equals : κ → κ → Bool) :
    Hashmap κ ν :=
  let minimumBucketCount := minimumBucketCount width initialCapacity
  { buckets := List.replicate (bucketsFor minimumBucketCount (minimumBucketCount + 1) 1) []
    hash, equals
    size := 0 }

/-- The secondary hash applied on top of `map->hash`. -/
def hashKey (map : Hashmap κ ν) (key : κ) : BitVec 32 :=
  let h := map.hash key
  let h := h + ~~~(h <<< 9)
  let h := h ^^^ (h >>> 14)
  let h := h + (h <<< 4)
  h ^^^ (h >>> 10)

/-- `((size_t) hash) & (bucketCount - 1)`: the conversion extends the sign.  In a `size_t` of 32
bits there is nothing to extend, and the mask is no longer than the hash. -/
def calculateIndex (bucketCount : Nat) (hash : BitVec 32) : Nat :=
  (hash.signExtend 64).toNat &&& (bucketCount - 1)

def equalKeys [BEq κ] (keyA : κ) (hashA : BitVec 32) (keyB : κ) (hashB : BitVec 32)
    (equals : κ → κ → Bool) : Bool :=
  if keyA == keyB then true
  else if hashA != hashB then false
  else equals keyA keyB

/-- Moves one entry to the front of its bucket in the new table. -/
def place (newBucketCount : Nat) (newBuckets : List (List (Entry κ ν))) (entry : Entry κ ν) :
    List (List (Entry κ ν)) :=
  newBuckets.modify (calculateIndex newBucketCount entry.hash) (entry :: ·)

/-- `expandIfNecessary`; `callocOk` says whether the new table can be allocated. -/
def expandIfNecessary (callocOk : Bool) (map : Hashmap κ ν) : Hashmap κ ν :=
  if map.bucketCount * 3 / 4 < map.size then
    if callocOk then
      let newBucketCount := map.bucketCount <<< 1
      { map with
        buckets := map.buckets.foldl (fun nb chain => chain.foldl (place newBucketCount) nb)
          (List.replicate newBucketCount []) }
    else map
  else map

/-- `hashmapClear`: the chains are freed, the table keeps its size. -/
def hashmapClear (map : Hashmap κ ν) : Hashmap κ ν :=
  { map with buckets := List.replicate map.bucketCount [], size := 0 }

section Operations
variable [BEq κ] (map : Hashmap κ ν) (key : κ)

/-- The bucket a key belongs to. -/
def indexOf : Nat := calculateIndex map.bucketCount (map.hashKey key)

/-- The test the scans of a chain make on each entry. -/
def found (current : Entry κ ν) : Bool :=
  equalKeys current.key current.hash key (map.hashKey key) map.equals

/-- The position in its chain of the first entry that answers to `key`. -/
def position : Option Nat := (map.chain (map.indexOf key)).findIdx? (map.found key)

def entryGet : Option EntryRef :=
  (map.position key).map fun pos => ⟨map.indexOf key, pos⟩

/-- Dereferences an `Entry*`. -/
def entryAt (ref : EntryRef) : Option (Entry κ ν) := (map.chain ref.bucket)[ref.pos]?

/-- `entry->value = value`, through an `Entry*`. -/
def setValue (ref : EntryRef) (value : ν) : Hashmap κ ν :=
  { map with
    buckets := map.buckets.modify ref.bucket fun chain =>
      chain.modify ref.pos fun entry => { entry with value } }

/-- `hashmapPut`; `entryOk` and `callocOk` say whether `createEntry` and the
growth of the table can allocate.  The second component is the value replaced. -/
def hashmapPut (entryOk callocOk : Bool) (value : ν) : Hashmap κ ν × Option ν :=
  match map.entryGet key with
  | some ref => (map.setValue ref value, (map.entryAt ref).map (·.value))
  | none =>
      if entryOk then
        let entry : Entry κ ν := { key, hash := map.hashKey key, value }
        (expandIfNecessary callocOk
          { map with
            buckets := map.buckets.modify (map.indexOf key) (· ++ [entry])
            size := map.size + 1 }, none)
      else (map, none)

def hashmapGet : Option ν :=
  ((map.chain (map.indexOf key)).find? (map.found key)).map (·.value)

end Operations

/-! ## Growing the table -/

theorem bucketsFor_two_pow (minimum : Nat) :
    ∀ (fuel count : Nat), (∃ k, count = 2 ^ k) → ∃ k, bucketsFor minimum fuel count = 2 ^ k
  | 0, _, h => h
  | fuel + 1, count, ⟨k, hk⟩ => by
      unfold bucketsFor
      split
      · refine bucketsFor_two_pow minimum fuel _ ⟨k + 1, ?_⟩
        rw [hk, Nat.shiftLeft_eq, Nat.pow_one, Nat.pow_succ]
      · exact ⟨k, hk⟩

theorem calculateIndex_lt {n : Nat} (h : ∃ k, n = 2 ^ k) (hash : BitVec 32) :
    calculateIndex n hash < n := by
  obtain ⟨k, rfl⟩ := h
  rw [calculateIndex, Nat.and_two_pow_sub_one_eq_mod]
  exact Nat.mod_lt _ (Nat.two_pow_pos k)

/-- Each entry of the table lies in the bucket its hash selects. -/
def Placed (n : Nat) (buckets : List (List (Entry κ ν))) : Prop :=
  ∀ (i : Nat) (c : List (Entry κ ν)), buckets[i]? = some c → ∀ e ∈ c, calculateIndex n e.hash = i

theorem placed_replicate (n m : Nat) :
    Placed n (List.replicate m ([] : List (Entry κ ν))) := by
  intro i c hc e he
  have hnil : c = [] := (List.mem_replicate.mp (List.mem_of_getElem? hc)).2
  rw [hnil] at he
  cases he

/-- Changing one bucket of a table leaves a permutation of the scan with the
change of that bucket. -/
theorem flatten_modify_perm {f : List (Entry κ ν) → List (Entry κ ν)} {e : Entry κ ν}
    (hf : ∀ c, (f c).Perm (e :: c)) :
    ∀ (buckets : List (List (Entry κ ν))) (i : Nat), i < buckets.length →
      (buckets.modify i f).flatten.Perm (e :: buckets.flatten)
  | [], _, h => absurd h (Nat.not_lt_zero _)
  | c :: buckets, 0, _ => by
      simpa using (hf c).append_right buckets.flatten
  | c :: buckets, i + 1, h => by
      have ih := flatten_modify_perm hf buckets i (Nat.lt_of_succ_lt_succ h)
      have hmid := (ih.append_left c).trans List.perm_middle
      simpa using hmid

theorem placed_modify {n i : Nat} {buckets : List (List (Entry κ ν))} {e : Entry κ ν}
    {f : List (Entry κ ν) → List (Entry κ ν)} (h : Placed n buckets)
    (hi : calculateIndex n e.hash = i) (hf : ∀ c, (f c).Perm (e :: c)) :
    Placed n (buckets.modify i f) := by
  intro j c hc x hx
  rw [List.getElem?_modify] at hc
  obtain ⟨d, hd, rfl⟩ := Option.map_eq_some_iff.mp hc
  split at hx
  · rename_i hij
    rcases List.mem_cons.mp ((hf d).mem_iff.mp hx) with rfl | hxd
    · exact hi.trans hij
    · exact h j d hd x hxd
  · exact h j d hd x hx

theorem foldl_place {n : Nat} (hn : ∃ k, n = 2 ^ k) :
    ∀ (l : List (Entry κ ν)) (buckets : List (List (Entry κ ν))), buckets.length = n →
      Placed n buckets →
      (l.foldl (place n) buckets).length = n ∧ Placed n (l.foldl (place n) buckets) ∧
        (l.foldl (place n) buckets).flatten.Perm (l ++ buckets.flatten)
  | [], _, hlen, hp => ⟨hlen, hp, List.Perm.refl _⟩
  | e :: l, buckets, hlen, hp => by
      have hlt : calculateIndex n e.hash < buckets.length := hlen ▸ calculateIndex_lt hn e.hash
      obtain ⟨h1, h2, h3⟩ := foldl_place hn l (place n buckets e) (by simpa [place] using hlen)
        (placed_modify hp rfl fun c => List.Perm.refl _)
      refine ⟨h1, h2, h3.trans ?_⟩
      have hmid := (flatten_modify_perm (fun c => List.Perm.refl (e :: c)) buckets _ hlt).append_left l
      exact hmid.trans List.perm_middle

/-! ## The invariant -/

/-- The invariant of the table. -/
structure WellFormed (map : Hashmap κ ν) : Prop where
  two_pow : ∃ k, map.bucketCount = 2 ^ k
  placed : Placed map.bucketCount map.buckets
  hashed : ∀ e ∈ map.entries, e.hash = map.hashKey e.key
  size_eq : map.size = map.entries.length

@[simp] theorem entries_hashmapClear (map : Hashmap κ ν) : map.hashmapClear.entries = [] := by
  simp [entries, hashmapClear]

@[simp] theorem hash_hashmapClear (map : Hashmap κ ν) : map.hashmapClear.hash = map.hash := rfl

@[simp] theorem equals_hashmapClear (map : Hashmap κ ν) :
    map.hashmapClear.equals = map.equals := rfl

theorem WellFormed.hashmapClear {map : Hashmap κ ν} (h : map.WellFormed) :
    map.hashmapClear.WellFormed where
  two_pow := by simpa [Hashmap.hashmapClear, bucketCount] using h.two_pow
  placed := placed_replicate _ _
  hashed := by simp
  size_eq := by rw [entries_hashmapClear]; rfl

theorem wellFormed_hashmapCreate (width capacity : Nat) (hash : κ → BitVec 32)
    (equals : κ → κ → Bool) : (hashmapCreate width capacity hash equals : Hashmap κ ν).WellFormed where
  two_pow := by
    simpa [hashmapCreate, bucketCount] using bucketsFor_two_pow _ _ 1 ⟨0, rfl⟩
  placed := placed_replicate _ _
  hashed := by simp [hashmapCreate, entries]
  size_eq := by simp [hashmapCreate, entries]

/-- Growth keeps the functions of the table and, up to its order, the scan. -/
theorem expandIfNecessary_spec (callocOk : Bool) {map : Hashmap κ ν} (h : map.WellFormed) :
    (expandIfNecessary callocOk map).WellFormed ∧
      (expandIfNecessary callocOk map).entries.Perm map.entries ∧
      (expandIfNecessary callocOk map).hash = map.hash ∧
      (expandIfNecessary callocOk map).equals = map.equals := by
  unfold expandIfNecessary
  split
  · split
    · obtain ⟨k, hk⟩ := h.two_pow
      have hn : ∃ k, map.bucketCount <<< 1 = 2 ^ k :=
        ⟨k + 1, by rw [hk, Nat.shiftLeft_eq, Nat.pow_one, Nat.pow_succ]⟩
      obtain ⟨hlen, hplaced, hperm⟩ := foldl_place hn map.buckets.flatten
        (List.replicate (map.bucketCount <<< 1) []) (by simp) (placed_replicate _ _)
      rw [List.foldl_flatten] at hlen hplaced hperm
      have hperm' := hperm.trans (by simp : (map.buckets.flatten ++
        (List.replicate (map.bucketCount <<< 1) []).flatten).Perm map.buckets.flatten)
      refine ⟨⟨?_, ?_, ?_, ?_⟩, hperm', rfl, rfl⟩
      · rw [bucketCount, hlen]; exact hn
      · rw [bucketCount, hlen]; exact hplaced
      · exact fun e he => h.hashed e (hperm'.mem_iff.mp he)
      · exact h.size_eq.trans hperm'.length_eq.symm
    · exact ⟨h, List.Perm.refl _, rfl, rfl⟩
  · exact ⟨h, List.Perm.refl _, rfl, rfl⟩

/-! ## Looking an entry up and changing it -/

theorem modify_append_cons {α : Type} (f : α → α) (x : α) (b : List α) :
    ∀ a : List α, (a ++ x :: b).modify a.length f = a ++ f x :: b
  | [] => by simp
  | y :: a => by simp [modify_append_cons f x b a]

section Lookup
variable [BEq κ] {map : Hashmap κ ν} {key : κ} {ref : EntryRef}

/-- Where an `Entry*` found by `entryGet` points, with the buckets and the chain
cut there.  The entries before it in the chain do not answer to the key. -/
theorem entryGet_split (h : map.entryGet key = some ref) :
    ∃ above front e rest below, map.buckets = above ++ (front ++ e :: rest) :: below ∧
      ref = ⟨above.length, front.length⟩ ∧ above.length = map.indexOf key ∧
      map.found key e = true ∧ ∀ x ∈ front, map.found key x = false := by
  obtain ⟨pos, hpos, rfl⟩ := Option.map_eq_some_iff.mp h
  obtain ⟨hlt, hfound, hbefore⟩ := List.findIdx?_eq_some_iff_getElem.mp hpos
  have hidx : map.indexOf key < map.buckets.length := by
    apply Classical.byContradiction
    intro hge
    simp [chain, hge] at hlt
  have hchain : map.chain (map.indexOf key) = map.buckets[map.indexOf key] := by
    simp [chain, hidx]
  refine ⟨map.buckets.take (map.indexOf key), (map.chain (map.indexOf key)).take pos,
    (map.chain (map.indexOf key))[pos], (map.chain (map.indexOf key)).drop (pos + 1),
    map.buckets.drop (map.indexOf key + 1), ?_, ?_, ?_, hfound, ?_⟩
  · rw [← List.drop_eq_getElem_cons hlt, List.take_append_drop, hchain,
      ← List.drop_eq_getElem_cons hidx, List.take_append_drop]
  · rw [List.length_take_of_le (Nat.le_of_lt hidx), List.length_take_of_le (Nat.le_of_lt hlt)]
  · exact List.length_take_of_le (Nat.le_of_lt hidx)
  · intro x hx
    obtain ⟨j, hj, rfl⟩ := List.getElem_of_mem hx
    rw [List.length_take] at hj
    rw [List.getElem_take]
    simpa using hbefore j (by omega)

/-- `entryGet` finds an entry of the table that answers to the key, and writing
its value changes that entry of the scan and no other. -/
theorem entryGet_some (h : map.entryGet key = some ref) :
    ∃ front e rest, map.entries = front ++ e :: rest ∧ map.entryAt ref = some e ∧
      map.found key e = true ∧
      ∀ value, (map.setValue ref value).entries = front ++ { e with value } :: rest := by
  obtain ⟨above, front, e, rest, below, hb, rfl, -, hfound, -⟩ := entryGet_split h
  refine ⟨above.flatten ++ front, e, rest ++ below.flatten, ?_, ?_, hfound, fun value => ?_⟩
  · rw [entries, hb]; simp
  · rw [entryAt, chain, hb]; simp
  · rw [entries, setValue, hb]; simp [modify_append_cons]

/-- An entry answers to another pointer only under its own hash. -/
theorem hash_of_found {e : Entry κ ν} (h : map.found key e = true) (hne : (e.key == key) = false) :
    e.hash = map.hashKey key := by
  rw [found, equalKeys, if_neg (by simp [hne])] at h
  split at h
  · cases h
  · rename_i hhash
    simpa using hhash

/-- A key that `entryGet` does not find answers to no entry of its bucket. -/
theorem entryGet_none (h : map.entryGet key = none) (hw : map.WellFormed) :
    ∀ e ∈ map.entries, e.hash = map.hashKey key → map.found key e = false := by
  intro e he hhash
  rw [entryGet, Option.map_eq_none_iff, position, List.findIdx?_eq_none_iff] at h
  obtain ⟨c, hc, hec⟩ := List.mem_flatten.mp he
  obtain ⟨i, hi, rfl⟩ := List.getElem_of_mem hc
  have hplaced := hw.placed i _ (List.getElem?_eq_getElem hi) e hec
  rw [hhash] at hplaced
  refine h e ?_
  rw [chain, indexOf, hplaced]
  simpa [hi] using hec

theorem WellFormed.setValue (hw : map.WellFormed) (h : map.entryGet key = some ref) (value : ν) :
    (map.setValue ref value).WellFormed := by
  obtain ⟨above, front, e, rest, below, hb, rfl, -, -, -⟩ := entryGet_split h
  have hset : (map.setValue ⟨above.length, front.length⟩ value).buckets =
      above ++ (front ++ { e with value } :: rest) :: below := by
    rw [Hashmap.setValue, hb]; simp [modify_append_cons]
  refine ⟨?_, ?_, ?_, ?_⟩
  · rw [bucketCount, hset]
    have h2 := hw.two_pow
    rw [bucketCount, hb] at h2
    simpa using h2
  · intro i c hc x hx
    have hcount : (map.setValue ⟨above.length, front.length⟩ value).bucketCount =
        map.bucketCount := by
      rw [bucketCount, bucketCount, hset, hb]; simp
    rw [hset] at hc
    rw [hcount]
    by_cases hi : i = above.length
    · subst hi
      have hce : c = front ++ { e with value } :: rest := by simpa using hc.symm
      have hold : map.buckets[above.length]? = some (front ++ e :: rest) := by rw [hb]; simp
      rw [hce] at hx
      rcases List.mem_append.mp hx with hf | hr
      · exact hw.placed _ _ hold x (List.mem_append_left _ hf)
      · rcases List.mem_cons.mp hr with rfl | hr
        · exact hw.placed _ _ hold e (by simp)
        · exact hw.placed _ _ hold x (by simp [hr])
    · refine hw.placed i c ?_ x hx
      rw [hb]
      rw [← hc, List.getElem?_append, List.getElem?_append]
      split
      · rfl
      · rename_i hlt
        obtain ⟨d, hd⟩ : ∃ d, i - above.length = d + 1 := ⟨i - above.length - 1, by omega⟩
        rw [hd]; rfl
  · intro x hx
    rw [entries, hset] at hx
    have hmem : ∀ y, y ∈ (above ++ (front ++ e :: rest) :: below).flatten → y ∈ map.entries := by
      intro y hy; rw [entries, hb]; exact hy
    simp only [List.flatten_append, List.flatten_cons, List.mem_append, List.mem_cons] at hx hmem
    rcases hx with hx | (hx | rfl | hx) | hx
    · exact hw.hashed x (hmem x (Or.inl hx))
    · exact hw.hashed x (hmem x (Or.inr (Or.inl (Or.inl hx))))
    · exact hw.hashed e (hmem e (Or.inr (Or.inl (Or.inr (Or.inl rfl)))))
    · exact hw.hashed x (hmem x (Or.inr (Or.inl (Or.inr (Or.inr hx)))))
    · exact hw.hashed x (hmem x (Or.inr (Or.inr hx)))
  · have hs := hw.size_eq
    rw [entries, hb] at hs
    rw [entries, hset]
    simpa [Hashmap.setValue] using hs

/-- The entry `hashmapPut` creates. -/
def newEntry (map : Hashmap κ ν) (key : κ) (value : ν) : Entry κ ν :=
  { key, hash := map.hashKey key, value }

omit [BEq κ] in
theorem calculateIndex_newEntry (map : Hashmap κ ν) (key : κ) (value : ν) :
    calculateIndex map.bucketCount (map.newEntry key value).hash = map.indexOf key := rfl

/-- **Putting an absent key** adds its entry to the scan, up to the order the
growth of the table leaves. -/
theorem hashmapPut_absent (callocOk : Bool) (value : ν) (hw : map.WellFormed)
    (h : map.entryGet key = none) :
    (map.hashmapPut key true callocOk value).1.WellFormed ∧
      (map.hashmapPut key true callocOk value).1.entries.Perm
        (map.newEntry key value :: map.entries) ∧
      (map.hashmapPut key true callocOk value).1.hash = map.hash ∧
      (map.hashmapPut key true callocOk value).1.equals = map.equals := by
  have hlt : map.indexOf key < map.buckets.length := calculateIndex_lt hw.two_pow _
  have hperm : ∀ c : List (Entry κ ν),
      (c ++ [map.newEntry key value]).Perm (map.newEntry key value :: c) :=
    fun c => List.perm_append_singleton _ _
  have hflat := flatten_modify_perm hperm map.buckets (map.indexOf key) hlt
  have hgrown : WellFormed { map with
      buckets := map.buckets.modify (map.indexOf key) (· ++ [map.newEntry key value])
      size := map.size + 1 } := by
    refine ⟨?_, ?_, ?_, ?_⟩
    · simpa [bucketCount] using hw.two_pow
    · have hp : Placed map.bucketCount (map.buckets.modify (map.indexOf key)
          (· ++ [map.newEntry key value])) :=
        placed_modify hw.placed (map.calculateIndex_newEntry key value) hperm
      simpa only [bucketCount, List.length_modify] using hp
    · intro e he
      rcases List.mem_cons.mp (hflat.mem_iff.mp he) with rfl | he
      · rfl
      · exact hw.hashed e he
    · exact (congrArg (· + 1) hw.size_eq).trans hflat.length_eq.symm
  obtain ⟨h1, h2, h3, h4⟩ := expandIfNecessary_spec callocOk hgrown
  simp only [hashmapPut, h, if_true]
  exact ⟨h1, h2.trans hflat, h3, h4⟩

omit [BEq κ] in
theorem expandIfNecessary_functions (callocOk : Bool) (map : Hashmap κ ν) :
    (expandIfNecessary callocOk map).hash = map.hash ∧
      (expandIfNecessary callocOk map).equals = map.equals := by
  unfold expandIfNecessary
  split
  · split <;> exact ⟨rfl, rfl⟩
  · exact ⟨rfl, rfl⟩

/-- The functions of a table never change. -/
theorem hashmapPut_functions (entryOk callocOk : Bool) (value : ν) :
    (map.hashmapPut key entryOk callocOk value).1.hash = map.hash ∧
      (map.hashmapPut key entryOk callocOk value).1.equals = map.equals := by
  unfold hashmapPut
  split
  · exact ⟨rfl, rfl⟩
  · split
    · exact expandIfNecessary_functions callocOk _
    · exact ⟨rfl, rfl⟩

/-- `hashmapGet` reads the value of the entry `entryGet` finds. -/
theorem hashmapGet_eq (map : Hashmap κ ν) (key : κ) :
    map.hashmapGet key = ((map.entryGet key).bind map.entryAt).map (·.value) := by
  rw [hashmapGet, entryGet, position]
  cases hpos : (map.chain (map.indexOf key)).findIdx? (map.found key) with
  | none =>
    have hnone : (map.chain (map.indexOf key)).find? (map.found key) = none :=
      List.find?_eq_none.mpr fun e he => by
        simpa using List.findIdx?_eq_none_iff.mp hpos e he
    simp [hnone]
  | some pos =>
    obtain ⟨hlt, hfound, hbefore⟩ := List.findIdx?_eq_some_iff_getElem.mp hpos
    have hsome : (map.chain (map.indexOf key)).find? (map.found key) =
        some (map.chain (map.indexOf key))[pos] :=
      List.find?_eq_some_iff_getElem.mpr
        ⟨hfound, pos, hlt, rfl, fun j hj => by simpa using hbefore j hj⟩
    simp [hsome, entryAt, hlt]

/-- A lookup answers with the value of an entry that answers to the key. -/
theorem exists_of_hashmapGet {value : ν} (h : map.hashmapGet key = some value) :
    ∃ e ∈ map.entries, map.found key e = true ∧ e.value = value := by
  rw [hashmapGet_eq] at h
  obtain ⟨e, he, rfl⟩ := Option.map_eq_some_iff.mp h
  obtain ⟨ref, hget, hat⟩ := Option.bind_eq_some_iff.mp he
  obtain ⟨front, e', rest, hentries, hat', hfound, -⟩ := entryGet_some hget
  cases hat.symm.trans hat'
  exact ⟨e, by rw [hentries]; simp, hfound, rfl⟩

end Lookup

end Hashmap
end Chttpc
