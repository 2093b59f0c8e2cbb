import Chttpc.HashmapRefines
import Chttpc.LinkedCells

/-!
# The hash table of `hashmap.c` in memory

The entries of a table are cells of a memory, linked by their `next` pointers, and the table
has an array of pointers to the first entry of each bucket.  Here every function is the loop
over pointers that it is in `hashmap.c`: a lookup that may change the table carries the
address of the pointer it came from, growth relinks the entries one by one, and `hashmapClear`
frees them.  A loop has no more turns than cells have been handed out, and a function that
follows a dangling pointer or frees an entry twice fails.

`Holds` connects this level with the table of lists: the buckets lead through disjoint chains
of cells that hold the entries of the lists, and no other cell is allocated.  Every call of
the table of lists is simulated (`simulates_perform`), whatever the functions of the table
are, so none fails and no entry leaks; if the functions are lawful, the calls are those of a
map (`simulates_meaning`).
-/

namespace Chttpc
open Linked

/-- `struct Hashmap`, and the memory its entries are in. -/
structure HashmapMemory (κ ν : Type) where
  store : Store (Entry κ ν)
  hash : κ → BitVec 32
  equals : κ → κ → Bool
  size : Nat

namespace HashmapMemory
variable {κ ν : Type}

def bucketCount (map : HashmapMemory κ ν) : Nat := map.store.roots.length

/-- More turns than a loop over a chain takes. -/
def fuel (map : HashmapMemory κ ν) : Nat := map.store.memory.top + 1

def hashmapCreate (width initialCapacity : Nat) (hash : κ → BitVec 32) (equals : κ → κ → Bool) :
    HashmapMemory κ ν :=
  let minimumBucketCount := Hashmap.minimumBucketCount width initialCapacity
  { store := ⟨Memory.empty,
      List.replicate (Hashmap.bucketsFor minimumBucketCount (minimumBucketCount + 1) 1) none⟩
    hash, equals
    size := 0 }

/-- The hash of a key is that of a table with the same functions. -/
def hashKey (map : HashmapMemory κ ν) (key : κ) : BitVec 32 :=
  Hashmap.hashKey (⟨[], map.hash, map.equals, map.size⟩ : Hashmap κ ν) key

def indexOf (map : HashmapMemory κ ν) (key : κ) : Nat :=
  Hashmap.calculateIndex map.bucketCount (map.hashKey key)

def found [BEq κ] (map : HashmapMemory κ ν) (key : κ) (current : Entry κ ν) : Bool :=
  Hashmap.equalKeys current.key current.hash key (map.hashKey key) map.equals

/-! ## Growth -/

/-- The entries of a bucket, moved to the new buckets one after another. -/
def moveChain (newBucketCount : Nat) :
    Nat → Option Nat → Store (Entry κ ν) → Option (Store (Entry κ ν))
  | _, none, new => some new
  | 0, some _, _ => none
  | fuel + 1, some entry, new =>
      (new.memory.read entry).bind fun cell =>
        (new.push (Hashmap.calculateIndex newBucketCount cell.content.hash) entry).bind
          (moveChain newBucketCount fuel cell.next)

def moveBuckets (newBucketCount fuel : Nat) :
    List (Option Nat) → Store (Entry κ ν) → Option (Store (Entry κ ν))
  | [], new => some new
  | entry :: buckets, new =>
      (moveChain newBucketCount fuel entry new).bind (moveBuckets newBucketCount fuel buckets)

def expandIfNecessary (callocOk : Bool) (map : HashmapMemory κ ν) : Option (HashmapMemory κ ν) :=
  if map.bucketCount * 3 / 4 < map.size then
    if callocOk then
      (moveBuckets (map.bucketCount <<< 1) map.fuel map.store.roots
          ⟨map.store.memory, List.replicate (map.bucketCount <<< 1) none⟩).map
        fun store => { map with store }
    else some map
  else some map

/-! ## Clearing -/

def clearBuckets (fuel : Nat) :
    List (Option Nat) → Memory (Cell (Entry κ ν)) → Option (Memory (Cell (Entry κ ν)))
  | [], memory => some memory
  | entry :: buckets, memory => (freeChain fuel entry memory).bind (clearBuckets fuel buckets)

def hashmapClear (map : HashmapMemory κ ν) : Option (HashmapMemory κ ν) :=
  (clearBuckets map.fuel map.store.roots map.store.memory).map fun memory =>
    { map with store := ⟨memory, List.replicate map.bucketCount none⟩, size := 0 }

/-- `hashmapFree`; the memory that is left. -/
def hashmapFree (map : HashmapMemory κ ν) : Option (Memory (Cell (Entry κ ν))) :=
  map.hashmapClear.map (·.store.memory)

/-! ## The other functions -/

section Operations
variable [BEq κ] (map : HashmapMemory κ ν) (key : κ)

/-- The loop that `entryGet`, `hashmapPut`, `hashmapMemoize` and `hashmapRemove` share: the
address `p` of a pointer, and the pointer. -/
def search : Option (Place × Option Nat) :=
  map.store.seek (map.found key) map.fuel (.root (map.indexOf key))

def entryGet : Option (Option Nat) := (map.search key).map Prod.snd

/-- What `hashmapPut` and `hashmapMemoize` do once they have created an entry at `p`. -/
def created (p : Place) (value : ν) (callocOk : Bool) : Option (HashmapMemory κ ν) :=
  (map.store.link p ⟨key, map.hashKey key, value⟩).bind fun store =>
    expandIfNecessary callocOk { map with store, size := map.size + 1 }

def hashmapPut (entryOk callocOk : Bool) (value : ν) : Option (HashmapMemory κ ν × Option ν) :=
  (map.search key).bind fun
    | (p, none) =>
        if entryOk then (map.created key p value callocOk).map (·, none)
        else some (map, none)
    | (_, some current) =>
        (map.store.memory.read current).bind fun cell =>
          (map.store.memory.setContent current { cell.content with value }).map fun memory =>
            ({ map with store := { map.store with memory } }, some cell.content.value)

def hashmapMemoize (entryOk callocOk : Bool) (initialValue : κ → ν) :
    Option (HashmapMemory κ ν × Option ν) :=
  (map.search key).bind fun
    | (p, none) =>
        if entryOk then
          (map.created key p (initialValue key) callocOk).map (·, some (initialValue key))
        else some (map, none)
    | (_, some current) =>
        (map.store.memory.read current).map fun cell => (map, some cell.content.value)

def hashmapRemove : Option (HashmapMemory κ ν × Option ν) :=
  (map.search key).bind fun
    | (_, none) => some (map, none)
    | (p, some current) =>
        (map.store.memory.read current).bind fun cell =>
          (map.store.unlink p current).map fun store =>
            ({ map with store, size := map.size - 1 }, some cell.content.value)

/-- The loop that `hashmapGet` and `hashmapContainsKey` share. -/
def lookup : Option (Option (Entry κ ν)) :=
  (map.store.roots[map.indexOf key]?).bind
    (findCell (map.found key) map.store.memory map.fuel)

def hashmapGet : Option (Option ν) := (map.lookup key).map (·.map (·.value))

def hashmapContainsKey : Option Bool := (map.lookup key).map (·.isSome)

open Hashmap in
def perform (map : HashmapMemory κ ν) : Request κ ν → Option (HashmapMemory κ ν × Answer ν)
  | .put key value entryOk callocOk =>
      (map.hashmapPut key entryOk callocOk value).map fun (map, old) => (map, .value old)
  | .get key => (map.hashmapGet key).map fun value => (map, .value value)
  | .containsKey key => (map.hashmapContainsKey key).map fun flag => (map, .flag flag)
  | .memoize key initialValue entryOk callocOk =>
      (map.hashmapMemoize key entryOk callocOk initialValue).map fun (map, value) =>
        (map, .value value)
  | .remove key => (map.hashmapRemove key).map fun (map, old) => (map, .value old)
  | .clear => map.hashmapClear.map fun map => (map, .done)
  | .size => some (map, .count map.size)

end Operations

section Scan
variable {σ : Type} (callback : κ → ν → σ → σ × Bool) (memory : Memory (Cell (Entry κ ν)))

/-- The inner loop of `hashmapForEach`; the result says whether the callback wants more. -/
def forEachChain : Nat → Option Nat → σ → Option (σ × Bool)
  | _, none, context => some (context, true)
  | 0, some _, _ => none
  | fuel + 1, some entry, context =>
      (memory.read entry).bind fun cell =>
        match callback cell.content.key cell.content.value context with
        | (context, true) => forEachChain fuel cell.next context
        | (context, false) => some (context, false)

def forEachBucket (fuel : Nat) : List (Option Nat) → σ → Option (σ × Bool)
  | [], context => some (context, true)
  | entry :: buckets, context =>
      (forEachChain callback memory fuel entry context).bind fun
        | (context, true) => forEachBucket fuel buckets context
        | (context, false) => some (context, false)

def hashmapForEach (map : HashmapMemory κ ν) (context : σ) : Option σ :=
  (forEachBucket callback map.store.memory map.fuel map.store.roots context).map Prod.fst

end Scan

/-! ## The table of lists, in memory -/

/-- The entries of the lists of cells. -/
abbrev contents (lists : List (List (Nat × Entry κ ν))) : List (List (Entry κ ν)) :=
  lists.map (·.map Prod.snd)

/-- The memory holds the entries of the table, and nothing else. -/
structure Holds (mem : HashmapMemory κ ν) (map : Hashmap κ ν) : Prop where
  lists : ∃ lists, Lists mem.store.memory mem.store.roots lists ∧ contents lists = map.buckets
  hash_eq : mem.hash = map.hash
  equals_eq : mem.equals = map.equals
  size_eq : mem.size = map.size
  wellFormed : map.WellFormed

theorem contents_append_cons (before after : List (List (Nat × Entry κ ν)))
    (l : List (Nat × Entry κ ν)) :
    contents (before ++ l :: after) = contents before ++ l.map Prod.snd :: contents after := by
  simp [contents]

section Holds
variable {mem : HashmapMemory κ ν} {map : Hashmap κ ν}

theorem Holds.bucketCount_eq (h : Holds mem map) : mem.bucketCount = map.bucketCount := by
  obtain ⟨lists, hlists, hcontents⟩ := h.lists
  rw [bucketCount, hlists.chains.length_eq, Hashmap.bucketCount, ← hcontents, List.length_map]

theorem Holds.hashKey_eq (h : Holds mem map) (key : κ) : mem.hashKey key = map.hashKey key := by
  rw [hashKey, Hashmap.hashKey, Hashmap.hashKey, h.hash_eq]

theorem Holds.indexOf_eq (h : Holds mem map) (key : κ) : mem.indexOf key = map.indexOf key := by
  rw [indexOf, Hashmap.indexOf, h.bucketCount_eq, h.hashKey_eq]

theorem Holds.found_eq [BEq κ] (h : Holds mem map) (key : κ) : mem.found key = map.found key := by
  funext e
  rw [found, Hashmap.found, h.hashKey_eq, h.equals_eq]

theorem holds_hashmapCreate (width capacity : Nat) (hash : κ → BitVec 32)
    (equals : κ → κ → Bool) : Holds (hashmapCreate width capacity hash equals : HashmapMemory κ ν)
      (Hashmap.hashmapCreate width capacity hash equals) where
  lists := by
    have h : Lists (Memory.empty : Memory (Cell (Entry κ ν))) _ _ := lists_empty.replicate_nil
      (Hashmap.bucketsFor (Hashmap.minimumBucketCount width capacity)
        (Hashmap.minimumBucketCount width capacity + 1) 1)
    rw [List.append_nil, List.append_nil] at h
    exact ⟨_, h, by simp [contents, Hashmap.hashmapCreate]⟩
  hash_eq := rfl
  equals_eq := rfl
  size_eq := rfl
  wellFormed := Hashmap.wellFormed_hashmapCreate width capacity hash equals

end Holds

/-! ## Growth relinks every entry -/

theorem contents_modify (lists : List (List (Nat × Entry κ ν))) (i : Nat) (n : Nat × Entry κ ν) :
    contents (lists.modify i (n :: ·)) = (contents lists).modify i (n.2 :: ·) := by
  refine List.ext_getElem? fun j => ?_
  simp only [contents, List.getElem?_map, List.getElem?_modify]
  cases lists[j]? with
  | none => rfl
  | some l =>
    by_cases hij : i = j
    · simp [hij]
    · simp [hij]

section Growth
variable {newBucketCount fuel : Nat} {remaining : List (Option Nat)}
  {rest : List (List (Nat × Entry κ ν))}

/-- The loop over a bucket moves its entries as the table of lists does. -/
theorem moveChain_lists (hn : ∃ k, newBucketCount = 2 ^ k) :
    ∀ {l : List (Nat × Entry κ ν)} {new : Store (Entry κ ν)} {entry : Option Nat}
      {newLists : List (List (Nat × Entry κ ν))} {fuel : Nat},
      Lists new.memory (new.roots ++ entry :: remaining) (newLists ++ l :: rest) →
        new.roots.length = newLists.length → newLists.length = newBucketCount → l.length ≤ fuel →
          ∃ new' newLists', moveChain newBucketCount fuel entry new = some new' ∧
            Lists new'.memory (new'.roots ++ remaining) (newLists' ++ rest) ∧
            new'.roots.length = newLists'.length ∧ newLists'.length = newBucketCount ∧
            contents newLists' =
              (l.map Prod.snd).foldl (Hashmap.place newBucketCount) (contents newLists) ∧
            new'.memory.top = new.memory.top
  | [], new, entry, newLists, fuel, h, hroots, hlength, _ => by
      obtain ⟨above, root, below, heq, hlength₁, hlist⟩ := h.split
      obtain ⟨rfl, hcons⟩ := List.append_inj heq (hroots.trans hlength₁.symm)
      cases hcons
      cases hlist
      exact ⟨new, newLists, by rw [moveChain], h.drop_nil hroots, hroots, hlength, rfl, rfl⟩
  | n :: l, new, entry, newLists, 0, _, _, _, hfuel => absurd hfuel (Nat.not_succ_le_zero _)
  | n :: l, new, entry, newLists, fuel + 1, h, hroots, hlength, hfuel => by
      have hi : Hashmap.calculateIndex newBucketCount n.2.hash < newLists.length :=
        hlength ▸ Hashmap.calculateIndex_lt hn _
      obtain ⟨above, root, below, heq, hlength₁, hlist⟩ := h.split
      obtain ⟨rfl, hcons⟩ := List.append_inj heq (hroots.trans hlength₁.symm)
      cases hcons
      obtain ⟨rfl, -⟩ := hlist
      obtain ⟨next, new₁, hread, hpush, h₁, hroots₁, htop₁⟩ := h.push hroots hi
      obtain ⟨new', newLists', hmove, h', hroots', hlength', hcontents, htop⟩ :=
        moveChain_lists hn h₁ (by simpa [hroots₁] using hroots) (by simpa using hlength)
          (Nat.le_of_succ_le_succ hfuel)
      refine ⟨new', newLists', ?_, h', hroots', hlength', ?_, htop.trans htop₁⟩
      · rw [moveChain, hread, Option.bind_some, hpush, Option.bind_some, hmove]
      · rw [hcontents, contents_modify, List.map_cons, List.foldl_cons]
        rfl

theorem moveBuckets_lists (hn : ∃ k, newBucketCount = 2 ^ k) :
    ∀ {remaining : List (Option Nat)} {rest : List (List (Nat × Entry κ ν))}
      {new : Store (Entry κ ν)} {newLists : List (List (Nat × Entry κ ν))},
      Lists new.memory (new.roots ++ remaining) (newLists ++ rest) →
        new.roots.length = newLists.length → newLists.length = newBucketCount →
          new.memory.top ≤ fuel →
          ∃ new' newLists', moveBuckets newBucketCount fuel remaining new = some new' ∧
            Lists new'.memory new'.roots newLists' ∧
            contents newLists' =
              (contents rest).foldl (fun nb chain => chain.foldl (Hashmap.place newBucketCount) nb)
                (contents newLists)
  | [], rest, new, newLists, h, hroots, _, _ => by
      have hrest : rest = [] := by
        have hlength := h.chains.length_eq
        simp only [List.length_append, List.append_nil] at hlength
        exact List.length_eq_zero_iff.mp (by omega)
      subst hrest
      rw [List.append_nil, List.append_nil] at h
      exact ⟨new, newLists, by rw [moveBuckets], h, rfl⟩
  | entry :: remaining, [], new, newLists, h, hroots, _, _ => by
      have hlength := h.chains.length_eq
      simp only [List.length_append, List.length_cons, List.length_nil] at hlength
      omega
  | entry :: remaining, l :: rest, new, newLists, h, hroots, hlength, hfuel => by
      obtain ⟨new₁, newLists₁, hmove, h₁, hroots₁, hlength₁, hcontents₁, htop₁⟩ :=
        moveChain_lists hn h hroots hlength (h.length_le.trans hfuel)
      obtain ⟨new', newLists', hmoves, h', hcontents⟩ :=
        moveBuckets_lists hn h₁ hroots₁ hlength₁ (htop₁ ▸ hfuel)
      refine ⟨new', newLists', ?_, h', ?_⟩
      · rw [moveBuckets, hmove, Option.bind_some, hmoves]
      · rw [hcontents, hcontents₁]
        rfl

theorem Holds.expandIfNecessary {mem : HashmapMemory κ ν} {map : Hashmap κ ν} (h : Holds mem map)
    (callocOk : Bool) :
    ∃ mem', HashmapMemory.expandIfNecessary callocOk mem = some mem' ∧
      Holds mem' (map.expandIfNecessary callocOk) := by
  have hwell := (Hashmap.expandIfNecessary_spec callocOk h.wellFormed).1
  by_cases hfull : map.bucketCount * 3 / 4 < map.size
  · have hfull' : mem.bucketCount * 3 / 4 < mem.size := by rwa [h.bucketCount_eq, h.size_eq]
    rw [Hashmap.expandIfNecessary, if_pos hfull] at hwell ⊢
    rw [HashmapMemory.expandIfNecessary, if_pos hfull', h.bucketCount_eq]
    cases callocOk with
    | false => exact ⟨mem, rfl, h⟩
    | true =>
      obtain ⟨lists, hlists, hcontents⟩ := h.lists
      obtain ⟨k, hk⟩ := h.wellFormed.two_pow
      have hn : ∃ k, map.bucketCount <<< 1 = 2 ^ k :=
        ⟨k + 1, by rw [hk, Nat.shiftLeft_eq, Nat.pow_one, Nat.pow_succ]⟩
      have hempty : Lists (Store.mk mem.store.memory (List.replicate (map.bucketCount <<< 1) none)).memory
          (List.replicate (map.bucketCount <<< 1) none ++ mem.store.roots)
          (List.replicate (map.bucketCount <<< 1) [] ++ lists) := hlists.replicate_nil _
      obtain ⟨new, newLists, hmove, hnew, hcontents'⟩ :=
        moveBuckets_lists hn hempty (by simp) (by simp) (Nat.le_succ mem.store.memory.top)
      refine ⟨{ mem with store := new }, ?_, ⟨newLists, hnew, ?_⟩, h.hash_eq, h.equals_eq,
        h.size_eq, hwell⟩
      · exact congrArg (Option.map fun store => { mem with store }) hmove
      · rw [hcontents', hcontents]
        simp [contents]
  · have hfull' : ¬ mem.bucketCount * 3 / 4 < mem.size := by rwa [h.bucketCount_eq, h.size_eq]
    rw [Hashmap.expandIfNecessary, if_neg hfull, HashmapMemory.expandIfNecessary, if_neg hfull']
    exact ⟨mem, rfl, h⟩

end Growth

/-! ## Clearing frees every entry -/

theorem clearBuckets_lists {fuel : Nat} :
    ∀ {roots : List (Option Nat)} {lists : List (List (Nat × Entry κ ν))}
      {memory : Memory (Cell (Entry κ ν))}, Lists memory roots lists → memory.top ≤ fuel →
        ∃ memory', clearBuckets fuel roots memory = some memory' ∧ Lists memory' [] []
  | [], lists, memory, h, _ => by
      obtain rfl := List.forall₂_nil_left_iff.mp h.chains
      exact ⟨memory, rfl, h⟩
  | entry :: roots, lists, memory, h, hfuel => by
      obtain ⟨l, rest, -, -, rfl⟩ := List.forall₂_cons_left_iff.mp h.chains
      have hfirst : Lists memory (entry :: roots) ([] ++ l :: rest) := h
      have hle := hfirst.length_le
      obtain ⟨memory₁, hfree, h₁, htop⟩ := h.freeChain (hle.trans hfuel)
      obtain ⟨memory', hclear, h'⟩ := clearBuckets_lists h₁ (htop ▸ hfuel)
      exact ⟨memory', by rw [clearBuckets, hfree, Option.bind_some, hclear], h'⟩

section Operations
variable {mem : HashmapMemory κ ν} {map : Hashmap κ ν}

theorem Holds.hashmapClear (h : Holds mem map) :
    ∃ mem', mem.hashmapClear = some mem' ∧ Holds mem' map.hashmapClear ∧
      Lists mem'.store.memory [] [] := by
  obtain ⟨lists, hlists, -⟩ := h.lists
  obtain ⟨memory, hclear, hempty⟩ :=
    clearBuckets_lists hlists (Nat.le_succ mem.store.memory.top)
  have hnil := hempty.replicate_nil mem.bucketCount
  rw [List.append_nil, List.append_nil] at hnil
  refine ⟨_, congrArg (Option.map _) hclear, ⟨⟨_, hnil, ?_⟩, h.hash_eq, h.equals_eq, rfl,
    h.wellFormed.hashmapClear⟩, hempty⟩
  simp [contents, Hashmap.hashmapClear, h.bucketCount_eq]

/-! ## Lookups -/

section Chains
variable [BEq κ] {map : Hashmap κ ν} {key : κ} {above below : List (List (Entry κ ν))}
  {front rest : List (Entry κ ν)} {e : Entry κ ν}

omit [BEq κ] in
theorem chain_eq (hbuckets : map.buckets = above ++ front :: below)
    (hlength : above.length = map.indexOf key) : map.chain (map.indexOf key) = front := by
  rw [Hashmap.chain, hbuckets, ← hlength]
  simp

theorem entryGet_eq_none (hbuckets : map.buckets = above ++ front :: below)
    (hlength : above.length = map.indexOf key) (hfront : ∀ x ∈ front, map.found key x = false) :
    map.entryGet key = none := by
  rw [Hashmap.entryGet, Hashmap.position, chain_eq hbuckets hlength,
    List.findIdx?_eq_none_iff.mpr hfront]
  rfl

theorem entryGet_eq_some (hbuckets : map.buckets = above ++ (front ++ e :: rest) :: below)
    (hlength : above.length = map.indexOf key) (hfront : ∀ x ∈ front, map.found key x = false)
    (he : map.found key e = true) : map.entryGet key = some ⟨above.length, front.length⟩ := by
  have hposition : (front ++ e :: rest).findIdx? (map.found key) = some front.length := by
    rw [List.findIdx?_append, List.findIdx?_eq_none_iff.mpr hfront]
    simp [he, List.findIdx?_cons]
  rw [Hashmap.entryGet, Hashmap.position, chain_eq hbuckets hlength, hposition, hlength]
  rfl

omit [BEq κ] in
theorem entryAt_eq (hbuckets : map.buckets = above ++ (front ++ e :: rest) :: below) :
    map.entryAt ⟨above.length, front.length⟩ = some e := by
  rw [Hashmap.entryAt, Hashmap.chain, hbuckets]
  simp

omit [BEq κ] in
theorem buckets_setValue (hbuckets : map.buckets = above ++ (front ++ e :: rest) :: below)
    (value : ν) :
    (map.setValue ⟨above.length, front.length⟩ value).buckets =
      above ++ (front ++ { e with value } :: rest) :: below := by
  rw [Hashmap.setValue, hbuckets, Hashmap.modify_append_cons, Hashmap.modify_append_cons]

omit [BEq κ] in
theorem buckets_unlink (hbuckets : map.buckets = above ++ (front ++ e :: rest) :: below) :
    (map.unlink ⟨above.length, front.length⟩).buckets = above ++ (front ++ rest) :: below := by
  rw [Hashmap.unlink, hbuckets, Hashmap.modify_append_cons]
  simp [List.eraseIdx_append_of_length_le]

end Chains

variable [BEq κ] {key : κ}

/-- The chain of the key, cut in front of the first entry that answers to the key. -/
theorem Holds.locate (h : Holds mem map) (key : κ) :
    ∃ before front rest after,
      Lists mem.store.memory mem.store.roots (before ++ (front ++ rest) :: after) ∧
        map.buckets = contents before ++ (front ++ rest).map Prod.snd :: contents after ∧
        before.length = map.indexOf key ∧ (∀ n ∈ front, map.found key n.2 = false) ∧
        ∀ n, rest.head? = some n → map.found key n.2 = true := by
  obtain ⟨lists, hlists, hcontents⟩ := h.lists
  have hlength : lists.length = map.bucketCount := by
    rw [Hashmap.bucketCount, ← hcontents, List.length_map]
  have hi : map.indexOf key < lists.length :=
    hlength ▸ Hashmap.calculateIndex_lt h.wellFormed.two_pow _
  have hcut : lists = lists.take (map.indexOf key) ++
      lists[map.indexOf key] :: lists.drop (map.indexOf key + 1) := by simp
  refine ⟨lists.take (map.indexOf key),
    lists[map.indexOf key].takeWhile fun n => !map.found key n.2,
    lists[map.indexOf key].dropWhile fun n => !map.found key n.2,
    lists.drop (map.indexOf key + 1), ?_, ?_, by simp; omega, ?_, ?_⟩
  · rw [List.takeWhile_append_dropWhile, ← hcut]
    exact hlists
  · rw [List.takeWhile_append_dropWhile, ← contents_append_cons, ← hcut, hcontents]
  · intro n hn
    simpa using List.all_eq_true.mp List.all_takeWhile n hn
  · intro n hn
    have hnot := List.head?_dropWhile_not (fun n => !map.found key n.2) lists[map.indexOf key]
    rw [hn] at hnot
    simpa using hnot

/-- **The two searches agree**: either no entry answers to the key, and the search in memory
stops behind the last cell of the chain, or it stops in front of the cell of the entry. -/
theorem Holds.search_cases (h : Holds mem map) (key : κ) :
    (∃ before l after, Lists mem.store.memory mem.store.roots (before ++ l :: after) ∧
      map.buckets = contents before ++ l.map Prod.snd :: contents after ∧
      before.length = map.indexOf key ∧ map.entryGet key = none ∧
      mem.search key = some (placeBehind before.length l, none)) ∨
    (∃ before front n rest after ref,
      Lists mem.store.memory mem.store.roots (before ++ (front ++ n :: rest) :: after) ∧
      map.entryGet key = some ref ∧ map.entryAt ref = some n.2 ∧
      (∀ value, (map.setValue ref value).buckets =
        contents (before ++ (front ++ (n.1, { n.2 with value }) :: rest) :: after)) ∧
      (map.unlink ref).buckets = contents (before ++ (front ++ rest) :: after) ∧
      mem.search key = some (placeBehind before.length front, some n.1)) := by
  obtain ⟨before, front, rest, after, hlists, hbuckets, hlength, hfront, hrest⟩ := h.locate key
  have hsearch : mem.search key =
      some (placeBehind before.length front, rest.head?.map Prod.fst) := by
    rw [search, h.found_eq, h.indexOf_eq, ← hlength]
    exact hlists.seek hfront hrest
  have hlength' : (contents before).length = map.indexOf key := by rw [List.length_map, hlength]
  have hfront' : ∀ x ∈ front.map Prod.snd, map.found key x = false := by
    intro x hx
    obtain ⟨n, hn, rfl⟩ := List.mem_map.mp hx
    exact hfront n hn
  cases rest with
  | nil =>
    rw [List.append_nil] at hlists hbuckets
    exact Or.inl ⟨before, front, after, hlists, hbuckets, hlength,
      entryGet_eq_none hbuckets hlength' hfront', hsearch⟩
  | cons n rest =>
    rw [List.map_append, List.map_cons] at hbuckets
    refine Or.inr ⟨before, front, n, rest, after, _, hlists,
      entryGet_eq_some hbuckets hlength' hfront' (hrest n rfl), entryAt_eq hbuckets,
      fun value => ?_, ?_, hsearch⟩
    · rw [buckets_setValue hbuckets, contents_append_cons, List.map_append, List.map_cons]
    · rw [buckets_unlink hbuckets, contents_append_cons, List.map_append]

omit [BEq κ] in
theorem expandIfNecessary_false (map : Hashmap κ ν) : map.expandIfNecessary false = map := by
  unfold Hashmap.expandIfNecessary
  split <;> rfl

/-- A new entry behind the last one of its chain. -/
theorem Holds.created (h : Holds mem map) (hget : map.entryGet key = none)
    {before after : List (List (Nat × Entry κ ν))} {l : List (Nat × Entry κ ν)}
    (hlists : Lists mem.store.memory mem.store.roots (before ++ l :: after))
    (hbuckets : map.buckets = contents before ++ l.map Prod.snd :: contents after)
    (hlength : before.length = map.indexOf key) (value : ν) (callocOk : Bool) :
    ∃ mem', mem.created key (placeBehind before.length l) value callocOk = some mem' ∧
      Holds mem' (map.hashmapPut key true callocOk value).1 := by
  obtain ⟨store, hlink, hlists'⟩ := hlists.link ⟨key, map.hashKey key, value⟩
  have hmodify : map.buckets.modify (map.indexOf key)
      (· ++ [({ key, hash := map.hashKey key, value } : Entry κ ν)]) =
      contents (before ++ (l ++ [(mem.store.memory.top, ⟨key, map.hashKey key, value⟩)]) :: after) := by
    have hlength' : (contents before).length = map.indexOf key := by rw [List.length_map, hlength]
    rw [hbuckets, ← hlength', Hashmap.modify_append_cons, contents_append_cons, List.map_append]
    rfl
  have hwell : (⟨map.buckets.modify (map.indexOf key)
      (· ++ [({ key, hash := map.hashKey key, value } : Entry κ ν)]), map.hash, map.equals,
      map.size + 1⟩ : Hashmap κ ν).WellFormed := by
    have hput := (Hashmap.hashmapPut_absent false value h.wellFormed hget).1
    simpa only [Hashmap.hashmapPut, hget, if_true, expandIfNecessary_false] using hput
  have hheld : Holds { mem with store, size := mem.size + 1 }
      { map with
        buckets := map.buckets.modify (map.indexOf key)
          (· ++ [({ key, hash := map.hashKey key, value } : Entry κ ν)])
        size := map.size + 1 } :=
    ⟨⟨_, hlists', hmodify.symm⟩, h.hash_eq, h.equals_eq, congrArg (· + 1) h.size_eq, hwell⟩
  obtain ⟨mem', hexpand, hmem'⟩ := hheld.expandIfNecessary callocOk
  refine ⟨mem', ?_, ?_⟩
  · rw [HashmapMemory.created, h.hashKey_eq, hlink, Option.bind_some, hexpand]
  · simpa [Hashmap.hashmapPut, hget] using hmem'

theorem Holds.hashmapPut (h : Holds mem map) (key : κ) (entryOk callocOk : Bool) (value : ν) :
    ∃ mem', mem.hashmapPut key entryOk callocOk value =
        some (mem', (map.hashmapPut key entryOk callocOk value).2) ∧
      Holds mem' (map.hashmapPut key entryOk callocOk value).1 := by
  rcases h.search_cases key with ⟨before, l, after, hlists, hbuckets, hlength, hget, hsearch⟩ |
    ⟨before, front, n, rest, after, ref, hlists, hget, hat, hsetValue, hunlinked, hsearch⟩
  · cases entryOk with
    | false =>
      refine ⟨mem, ?_, ?_⟩
      · simp [HashmapMemory.hashmapPut, Hashmap.hashmapPut, hsearch, hget]
      · simpa [Hashmap.hashmapPut, hget] using h
    | true =>
      obtain ⟨mem', hcreated, hmem'⟩ := h.created hget hlists hbuckets hlength value callocOk
      refine ⟨mem', ?_, hmem'⟩
      simp [HashmapMemory.hashmapPut, Hashmap.hashmapPut, hsearch, hget, hcreated]
  · obtain ⟨next, hread⟩ := hlists.read_mem (n := n) (by simp)
    obtain ⟨memory, hset, hlists'⟩ := hlists.setContent { n.2 with value }
    have hput : map.hashmapPut key entryOk callocOk value =
        (map.setValue ref value, some n.2.value) := by
      simp [Hashmap.hashmapPut, hget, hat]
    rw [hput]
    refine ⟨{ mem with store := { mem.store with memory } }, ?_, ⟨_, hlists', ?_⟩, h.hash_eq,
      h.equals_eq, h.size_eq, h.wellFormed.setValue hget value⟩
    · simp [HashmapMemory.hashmapPut, hsearch, hread, hset]
    · exact (hsetValue value).symm

theorem Holds.hashmapMemoize (h : Holds mem map) (key : κ) (entryOk callocOk : Bool)
    (initialValue : κ → ν) :
    ∃ mem', mem.hashmapMemoize key entryOk callocOk initialValue =
        some (mem', (map.hashmapMemoize key entryOk callocOk initialValue).2) ∧
      Holds mem' (map.hashmapMemoize key entryOk callocOk initialValue).1 := by
  rcases h.search_cases key with ⟨before, l, after, hlists, hbuckets, hlength, hget, hsearch⟩ |
    ⟨before, front, n, rest, after, ref, hlists, hget, hat, hsetValue, hunlinked, hsearch⟩
  · cases entryOk with
    | false =>
      refine ⟨mem, ?_, ?_⟩
      · simp [HashmapMemory.hashmapMemoize, Hashmap.hashmapMemoize, hsearch, hget]
      · simpa [Hashmap.hashmapMemoize, hget] using h
    | true =>
      obtain ⟨mem', hcreated, hmem'⟩ :=
        h.created hget hlists hbuckets hlength (initialValue key) callocOk
      refine ⟨mem', ?_, ?_⟩
      · simp [HashmapMemory.hashmapMemoize, Hashmap.hashmapMemoize, hsearch, hget, hcreated]
      · simpa [Hashmap.hashmapMemoize, hget] using hmem'
  · obtain ⟨next, hread⟩ := hlists.read_mem (n := n) (by simp)
    refine ⟨mem, ?_, ?_⟩
    · simp [HashmapMemory.hashmapMemoize, Hashmap.hashmapMemoize, hsearch, hget, hread, hat]
    · simpa [Hashmap.hashmapMemoize, hget] using h

theorem Holds.hashmapRemove (h : Holds mem map) (key : κ) :
    ∃ mem', mem.hashmapRemove key = some (mem', (map.hashmapRemove key).2) ∧
      Holds mem' (map.hashmapRemove key).1 := by
  rcases h.search_cases key with ⟨before, l, after, hlists, hbuckets, hlength, hget, hsearch⟩ |
    ⟨before, front, n, rest, after, ref, hlists, hget, hat, hsetValue, hunlinked, hsearch⟩
  · refine ⟨mem, ?_, ?_⟩
    · simp [HashmapMemory.hashmapRemove, Hashmap.hashmapRemove, hsearch, hget]
    · simpa [Hashmap.hashmapRemove, hget] using h
  · obtain ⟨next, hread⟩ := hlists.read_mem (n := n) (by simp)
    obtain ⟨store, hunlink, hlists'⟩ := hlists.unlink
    have hremove : map.hashmapRemove key = (map.unlink ref, some n.2.value) := by
      simp [Hashmap.hashmapRemove, hget, hat]
    rw [hremove]
    refine ⟨{ mem with store, size := mem.size - 1 }, ?_, ⟨_, hlists', ?_⟩, h.hash_eq,
      h.equals_eq, congrArg (· - 1) h.size_eq, h.wellFormed.unlink hget⟩
    · simp [HashmapMemory.hashmapRemove, hsearch, hread, hunlink]
    · exact hunlinked.symm

theorem Holds.lookup (h : Holds mem map) (key : κ) :
    mem.lookup key = some ((map.chain (map.indexOf key)).find? (map.found key)) := by
  obtain ⟨before, front, rest, after, hlists, hbuckets, hlength, -, -⟩ := h.locate key
  obtain ⟨above, root, below, hroots, hlength', hlist⟩ := hlists.split
  have hchain : map.chain (map.indexOf key) = (front ++ rest).map Prod.snd :=
    chain_eq hbuckets (by rw [List.length_map, hlength])
  have hroot : mem.store.roots[mem.indexOf key]? = some root := by
    rw [h.indexOf_eq, ← hlength, ← hlength', hroots]
    simp
  rw [HashmapMemory.lookup, hroot, Option.bind_some, hchain, h.found_eq]
  exact hlist.findCell (hlists.length_le.trans (Nat.le_succ _))

omit [BEq κ] in
theorem forEachChain_list {σ : Type} (callback : κ → ν → σ → σ × Bool)
    {memory : Memory (Cell (Entry κ ν))} :
    ∀ {l : List (Nat × Entry κ ν)} {entry : Option Nat} {fuel : Nat},
      IsList memory entry l none → l.length ≤ fuel → ∀ context,
        forEachChain callback memory fuel entry context =
          some (Hashmap.forEachChain callback (l.map Prod.snd) context)
  | [], _, _, h, _, context => by
      cases h
      rw [forEachChain]
      rfl
  | _ :: _, _, 0, _, hfuel, _ => absurd hfuel (Nat.not_succ_le_zero _)
  | n :: l, _, fuel + 1, h, hfuel, context => by
      obtain ⟨rfl, next, hread, hlist⟩ := h
      have ih := forEachChain_list callback hlist (Nat.le_of_succ_le_succ hfuel)
      rw [forEachChain, hread, List.map_cons, Hashmap.forEachChain, Option.bind_some]
      obtain ⟨context', more⟩ := callback n.2.key n.2.value context
      cases more with
      | true => exact ih context'
      | false => rfl

omit [BEq κ] in
theorem forEachBucket_lists {σ : Type} (callback : κ → ν → σ → σ × Bool)
    {memory : Memory (Cell (Entry κ ν))} {fuel : Nat} {roots : List (Option Nat)}
    {lists : List (List (Nat × Entry κ ν))}
    (hlists : List.Forall₂ (fun root l => IsList memory root l none) roots lists)
    (hfuel : ∀ l ∈ lists, l.length ≤ fuel) (context : σ) :
    forEachBucket callback memory fuel roots context =
      some (Hashmap.forEachBucket callback (contents lists) context) := by
  induction hlists generalizing context with
  | nil => rfl
  | cons hlist hlists ih =>
    have hrest := ih fun l hl => hfuel l (List.mem_cons_of_mem _ hl)
    rw [forEachBucket, forEachChain_list callback hlist (hfuel _ List.mem_cons_self),
      Option.bind_some, contents, List.map_cons, Hashmap.forEachBucket]
    obtain ⟨context', more⟩ := Hashmap.forEachChain callback _ context
    cases more with
    | true => exact hrest context'
    | false => rfl

omit [BEq κ] in
theorem Holds.hashmapForEach {σ : Type} (h : Holds mem map) (callback : κ → ν → σ → σ × Bool)
    (context : σ) : mem.hashmapForEach callback context = some (map.hashmapForEach callback context) := by
  obtain ⟨lists, hlists, hcontents⟩ := h.lists
  have hfuel : ∀ l ∈ lists, l.length ≤ mem.fuel := by
    intro l hl
    obtain ⟨before, after, rfl⟩ := List.append_of_mem hl
    exact hlists.length_le.trans (Nat.le_succ _)
  rw [HashmapMemory.hashmapForEach, forEachBucket_lists callback hlists.chains hfuel, hcontents]
  rfl

/-! ## Runs -/

open Hashmap in
/-- **Every call works in memory as it does on lists.** -/
theorem Holds.perform (h : Holds mem map) (request : Request κ ν) :
    ∃ mem', mem.perform request = some (mem', (map.perform request).2) ∧
      Holds mem' (map.perform request).1 := by
  cases request with
  | put key value entryOk callocOk =>
    obtain ⟨mem', hput, hmem'⟩ := h.hashmapPut key entryOk callocOk value
    exact ⟨mem', by rw [HashmapMemory.perform, hput]; rfl, hmem'⟩
  | get key =>
    refine ⟨mem, ?_, h⟩
    rw [HashmapMemory.perform, hashmapGet, h.lookup]
    rfl
  | containsKey key =>
    refine ⟨mem, ?_, h⟩
    rw [HashmapMemory.perform, hashmapContainsKey, h.lookup, Hashmap.perform,
      Hashmap.containsKey_eq, Hashmap.hashmapGet, Option.isSome_map]
    rfl
  | memoize key initialValue entryOk callocOk =>
    obtain ⟨mem', hmemoize, hmem'⟩ := h.hashmapMemoize key entryOk callocOk initialValue
    exact ⟨mem', by rw [HashmapMemory.perform, hmemoize]; rfl, hmem'⟩
  | remove key =>
    obtain ⟨mem', hremove, hmem'⟩ := h.hashmapRemove key
    exact ⟨mem', by rw [HashmapMemory.perform, hremove]; rfl, hmem'⟩
  | clear =>
    obtain ⟨mem', hclear, hmem', -⟩ := h.hashmapClear
    exact ⟨mem', by rw [HashmapMemory.perform, hclear]; rfl, hmem'⟩
  | size => exact ⟨mem, congrArg (fun n => some (mem, Answer.count n)) h.size_eq, h⟩

theorem simulates_perform :
    Machine.Simulates (Holds : HashmapMemory κ ν → Hashmap κ ν → Prop) perform
      (Machine.total Hashmap.perform) := by
  rintro mem map request map' answer h hperform
  have heq : map.perform request = (map', answer) := Option.some.inj hperform
  obtain ⟨mem', hmem, hmem'⟩ := h.perform request
  rw [heq] at hmem hmem'
  exact ⟨mem', hmem, hmem'⟩

/-- **The table is a map, in memory too.** -/
theorem simulates_meaning {hash : κ → BitVec 32} {equals : κ → κ → Bool}
    (h : Hashmap.Lawful hash equals) :
    Machine.Simulates
      (fun (mem : HashmapMemory κ ν) m => ∃ map, Holds mem map ∧ Hashmap.Represents h map m) perform
      (Machine.total (Hashmap.meaning h.setoid)) :=
  simulates_perform.trans (Hashmap.simulates_meaning h)

/-- **No run of calls fails or leaks**, whatever the functions of the table and the outcomes of
the allocations are: the calls answer as on lists, the allocated cells hold the entries of the
table, each once, and `hashmapFree` leaves none of them. -/
theorem run_memory_safe (width capacity : Nat) (hash : κ → BitVec 32) (equals : κ → κ → Bool)
    (requests : List (Hashmap.Request κ ν)) :
    ∃ mem map answers lists memory,
      Machine.run perform (hashmapCreate width capacity hash equals) requests =
        some (mem, answers) ∧
      Machine.run (Machine.total Hashmap.perform) (Hashmap.hashmapCreate width capacity hash equals)
        requests = some (map, answers) ∧
      Lists mem.store.memory mem.store.roots lists ∧ contents lists = map.buckets ∧
      mem.hashmapFree = some memory ∧ ∀ p, memory.read p = none := by
  obtain ⟨⟨map, answers⟩, hrun⟩ := Machine.exists_run_total Hashmap.perform requests
    (Hashmap.hashmapCreate width capacity hash equals)
  obtain ⟨mem, hrun', h⟩ := simulates_perform.run requests _ _ _ _
    (holds_hashmapCreate width capacity hash equals) hrun
  obtain ⟨lists, hlists, hcontents⟩ := h.lists
  obtain ⟨cleared, hclear, -, hempty⟩ := h.hashmapClear
  refine ⟨mem, map, answers, lists, cleared.store.memory, hrun', hrun, hlists, hcontents,
    congrArg (Option.map _) hclear, fun p => ?_⟩
  by_contra hp
  simpa using (hempty.live p).mp hp

section Lawful
variable {hash : κ → BitVec 32} {equals : κ → κ → Bool} {h : Hashmap.Lawful hash equals}

theorem Holds.hashmapGet_eq {m : KeyedMap.Map h.setoid ν} (hholds : Holds mem map)
    (hrep : Hashmap.Represents h map m) (key : κ) :
    mem.hashmapGet key = some (m (Quotient.mk _ key)) := by
  rw [hashmapGet, hholds.lookup, ← hrep.hashmapGet]
  rfl

/-- A run of the map is a run in memory, and in its last state the memory holds a table that
represents the map. -/
theorem exists_run (h : Hashmap.Lawful hash equals) (width capacity : Nat)
    (requests : List (Hashmap.Request κ ν)) :
    ∃ mem answers map m,
      Machine.run perform (hashmapCreate width capacity hash equals) requests =
        some (mem, answers) ∧
      Machine.run (Machine.total (Hashmap.meaning h.setoid)) (fun _ => none) requests =
        some (m, answers) ∧
      Holds mem map ∧ Hashmap.Represents h map m := by
  obtain ⟨⟨m, answers⟩, hrun⟩ :=
    Machine.exists_run_total (Hashmap.meaning h.setoid) requests fun _ => none
  obtain ⟨mem, hrun', map, hholds, hrep⟩ := (simulates_meaning h).run requests _ _ _ _
    ⟨_, holds_hashmapCreate width capacity hash equals,
      Hashmap.represents_hashmapCreate h width capacity⟩ hrun
  exact ⟨mem, answers, map, m, hrun', hrun, hholds, hrep⟩

end Lawful

/-- **Runs of calls are runs of a map**: with lawful functions, a table in memory answers every
list of calls as the map does. -/
theorem run_meaning {hash : κ → BitVec 32} {equals : κ → κ → Bool}
    (h : Hashmap.Lawful hash equals) (width capacity : Nat)
    (requests : List (Hashmap.Request κ ν)) :
    ∃ mem answers m,
      Machine.run perform (hashmapCreate width capacity hash equals) requests =
        some (mem, answers) ∧
      Machine.run (Machine.total (Hashmap.meaning h.setoid)) (fun _ => none) requests =
        some (m, answers) ∧
      ∀ key, mem.hashmapGet key = some (m (Quotient.mk _ key)) := by
  obtain ⟨mem, answers, map, m, hrun', hrun, hholds, hrep⟩ := exists_run h width capacity requests
  exact ⟨mem, answers, m, hrun', hrun, hholds.hashmapGet_eq hrep⟩

/-- `int` keys at addresses that hold the same number are one key. -/
theorem run_meaning_int :
    let ints : Nat → BitVec 32 := fun p => BitVec.ofNat 32 (p / 2)
    let h := Hashmap.lawful_int ints
    let requests : List (Hashmap.Request Nat Char) :=
      [.put 4 'a' true true, .put 5 'b' true true, .put 6 'c' true false, .remove 4, .size]
    ∃ mem answers m,
      Machine.run perform
        (hashmapCreate 32 0 (Hashmap.hashmapIntHash ints) (Hashmap.hashmapIntEquals ints)) requests =
          some (mem, answers) ∧
      Machine.run (Machine.total (Hashmap.meaning h.setoid)) (fun _ => none) requests =
        some (m, answers) ∧
      ∀ key, mem.hashmapGet key = some (m (Quotient.mk _ key)) :=
  run_meaning (Hashmap.lawful_int _) 32 0 _

example : (Machine.run perform
    (hashmapCreate 32 0 (Hashmap.hashmapIntHash fun p => BitVec.ofNat 32 (p / 2))
      (Hashmap.hashmapIntEquals fun p => BitVec.ofNat 32 (p / 2)))
    [.put 4 'a' true true, .put 5 'b' true true, .put 6 'c' true false, .remove 4, .size]).map
      Prod.snd =
    some [.value none, .value (some 'a'), .value none, .value (some 'b'), .count 1] := rfl

/-- **A scan behind any run of calls** calls back for each binding once, or for different
bindings up to the first one behind which the callback wants no more. -/
theorem run_hashmapForEach {hash : κ → BitVec 32} {equals : κ → κ → Bool} {σ : Type}
    (h : Hashmap.Lawful hash equals) {width capacity : Nat}
    {requests : List (Hashmap.Request κ ν)} {answers : List (Hashmap.Answer ν)}
    (hrun : Machine.run perform (hashmapCreate width capacity hash equals) requests =
      some (mem, answers))
    (callback : κ → ν → σ → σ × Bool) (context : σ) :
    ∃ visited, mem.hashmapForEach callback context =
        some (Hashmap.visit callback visited context) ∧
      (visited.Pairwise fun e e' => equals e.key e'.key = false) ∧
      (∀ e ∈ visited, mem.hashmapGet e.key = some (some e.value)) ∧
      ((Hashmap.wantsMore callback visited context = true ∧
          ∀ key value, mem.hashmapGet key = some (some value) →
            ∃ e ∈ visited, equals e.key key = true ∧ e.value = value) ∨
        ∃ front last, visited = front ++ [last] ∧
          Hashmap.wantsMore callback front context = true ∧
          (callback last.key last.value (Hashmap.visit callback front context)).2 = false) := by
  obtain ⟨mem', answers', map, m, hrun', -, hholds, hrep⟩ := exists_run h width capacity requests
  cases hrun.symm.trans hrun'
  have hget := hholds.hashmapGet_eq hrep
  obtain ⟨visited, heq, hdistinct, hbound, hwhole⟩ := hrep.hashmapForEach callback context
  refine ⟨visited, ?_, ?_, fun e he => ?_, ?_⟩
  · rw [hholds.hashmapForEach, heq]
  · exact List.Pairwise.imp (fun hne => Bool.eq_false_iff.mpr hne) hdistinct
  · rw [hget, hbound e he]
  · rcases hwhole with ⟨hdenote, hwants⟩ | hstopped
    · refine Or.inl ⟨hwants, fun key value hkey => ?_⟩
      rw [hget, ← hdenote] at hkey
      obtain ⟨e, he, hmk, hvalue⟩ := KeyedMap.exists_of_denote (Option.some.inj hkey)
      exact ⟨e, he, KeyedMap.mk_eq_iff.mp hmk, hvalue⟩
    · exact Or.inr hstopped

/-- Two bindings, and a callback that wants one. -/
theorem run_hashmapForEach_int :
    let ints : Nat → BitVec 32 := fun p => BitVec.ofNat 32 (p / 2)
    ∃ mem answers visited,
      Machine.run perform
        (hashmapCreate 32 0 (Hashmap.hashmapIntHash ints) (Hashmap.hashmapIntEquals ints))
        [.put 4 'a' true true, .put 6 'c' true true] = some (mem, answers) ∧
      mem.hashmapForEach (fun _ value seen => (value :: seen, false)) [] =
        some (Hashmap.visit (fun _ value seen => (value :: seen, false)) visited []) ∧
      ∀ e ∈ visited, mem.hashmapGet e.key = some (some e.value) := by
  intro ints
  obtain ⟨mem, answers, -, hrun, -⟩ := run_meaning (Hashmap.lawful_int ints) 32 0
    [.put 4 'a' true true, .put 6 'c' true true]
  obtain ⟨visited, heq, -, hvisited, -⟩ := run_hashmapForEach (Hashmap.lawful_int ints) hrun
    (fun _ value seen => (value :: seen, false)) ([] : List Char)
  exact ⟨mem, answers, visited, hrun, heq, hvisited⟩

end Operations

end HashmapMemory
end Chttpc
