import Chttpc.Hashmap
import Chttpc.KeyedMap
import Chttpc.Machine

/-!
# What `hashmap.c` is for

A caller gives a table two functions and promises that `equals` is an equivalence under
which equal keys have equal hashes (`Lawful`).  Then the table is a map with one value for
each class of keys: `Represents` says that the scan of its buckets lists the associations
of the map, and every operation of the table is the operation of the map it is named after,
whatever buckets, hashes and the growth of the table do, and whichever allocations fail.

The two functions for `int` keys that come with the table are lawful.
-/

namespace Chttpc

namespace Hashmap
variable {κ ν : Type}

/-! ## The other functions of `hashmap.c` -/

/-- `map->size--` counts the entry that is freed, so it does not wrap around. -/
def unlink (map : Hashmap κ ν) (ref : EntryRef) : Hashmap κ ν :=
  { map with
    buckets := map.buckets.modify ref.bucket (·.eraseIdx ref.pos)
    size := map.size - 1 }

section Operations
variable [BEq κ] (map : Hashmap κ ν) (key : κ)

def hashmapContainsKey : Bool := (map.chain (map.indexOf key)).any (map.found key)

/-- `hashmapMemoize`.  The callback is called once the entry is there, with no value yet. -/
def hashmapMemoize (entryOk callocOk : Bool) (initialValue : κ → ν) : Hashmap κ ν × Option ν :=
  match map.entryGet key with
  | some ref => (map, (map.entryAt ref).map (·.value))
  | none =>
      if entryOk then
        ((map.hashmapPut key entryOk callocOk (initialValue key)).1, some (initialValue key))
      else (map, none)

/-- `hashmapRemove`; the value of the entry that is taken out. -/
def hashmapRemove : Hashmap κ ν × Option ν :=
  match map.entryGet key with
  | some ref => (map.unlink ref, (map.entryAt ref).map (·.value))
  | none => (map, none)

end Operations

/-- A call of one of the functions, with the outcomes of its allocations. -/
inductive Request (κ ν : Type)
  | put (key : κ) (value : ν) (entryOk callocOk : Bool)
  | get (key : κ)
  | containsKey (key : κ)
  | memoize (key : κ) (initialValue : κ → ν) (entryOk callocOk : Bool)
  | remove (key : κ)
  | clear
  | size

/-- What a call returns. -/
inductive Answer (ν : Type)
  | value (v : Option ν)
  | flag (b : Bool)
  | count (n : Nat)
  | done

def perform [BEq κ] (map : Hashmap κ ν) : Request κ ν → Hashmap κ ν × Answer ν
  | .put key value entryOk callocOk =>
      ((map.hashmapPut key entryOk callocOk value).1,
        .value (map.hashmapPut key entryOk callocOk value).2)
  | .get key => (map, .value (map.hashmapGet key))
  | .containsKey key => (map, .flag (map.hashmapContainsKey key))
  | .memoize key initialValue entryOk callocOk =>
      ((map.hashmapMemoize key entryOk callocOk initialValue).1,
        .value (map.hashmapMemoize key entryOk callocOk initialValue).2)
  | .remove key => ((map.hashmapRemove key).1, .value (map.hashmapRemove key).2)
  | .clear => (map.hashmapClear, .done)
  | .size => (map, .count map.size)

section Scan
variable {σ : Type} (callback : κ → ν → σ → σ × Bool)

/-- The inner loop of `hashmapForEach`; the result says whether the callback wants more. -/
def forEachChain : List (Entry κ ν) → σ → σ × Bool
  | [], context => (context, true)
  | entry :: next, context =>
      match callback entry.key entry.value context with
      | (context, true) => forEachChain next context
      | (context, false) => (context, false)

/-- The outer loop. -/
def forEachBucket : List (List (Entry κ ν)) → σ → σ × Bool
  | [], context => (context, true)
  | entry :: buckets, context =>
      match forEachChain callback entry context with
      | (context, true) => forEachBucket buckets context
      | (context, false) => (context, false)

def hashmapForEach (map : Hashmap κ ν) (context : σ) : σ :=
  (forEachBucket callback map.buckets context).1

end Scan

/-- `hashmapIntHash`, of the `int` a key points to. -/
def hashmapIntHash (memory : Nat → BitVec 32) (key : Nat) : BitVec 32 := memory key

def hashmapIntEquals (memory : Nat → BitVec 32) (keyA keyB : Nat) : Bool :=
  memory keyA == memory keyB

/-! ## Taking an entry out -/

section Remove
variable [BEq κ] {map : Hashmap κ ν} {key : κ} {ref : EntryRef}

theorem entries_unlink (h : map.entryGet key = some ref) :
    ∃ front e rest, map.entries = front ++ e :: rest ∧ map.entryAt ref = some e ∧
      map.found key e = true ∧ (map.unlink ref).entries = front ++ rest := by
  obtain ⟨above, front, e, rest, below, hb, rfl, -, hfound, -⟩ := entryGet_split h
  refine ⟨above.flatten ++ front, e, rest ++ below.flatten, ?_, ?_, hfound, ?_⟩
  · rw [entries, hb]; simp
  · rw [entryAt, chain, hb]; simp
  · rw [entries, unlink, hb]
    simp [modify_append_cons, List.eraseIdx_append_of_length_le]

omit [BEq κ] in
/-- The chains of a table without one of its entries. -/
theorem placed_unlink {n : Nat} {buckets : List (List (Entry κ ν))} (h : Placed n buckets)
    (i pos : Nat) : Placed n (buckets.modify i (·.eraseIdx pos)) := by
  intro j c hc x hx
  rw [List.getElem?_modify] at hc
  obtain ⟨d, hd, rfl⟩ := Option.map_eq_some_iff.mp hc
  split at hx
  · exact h j d hd x (List.mem_of_mem_eraseIdx hx)
  · exact h j d hd x hx

theorem WellFormed.unlink (hw : map.WellFormed) (h : map.entryGet key = some ref) :
    (map.unlink ref).WellFormed := by
  obtain ⟨front, e, rest, hentries, -, -, hunlinked⟩ := entries_unlink h
  have hcount : (map.unlink ref).bucketCount = map.bucketCount := by
    simp [Hashmap.unlink, bucketCount]
  refine ⟨?_, ?_, ?_, ?_⟩
  · rw [hcount]
    exact hw.two_pow
  · rw [hcount]
    exact placed_unlink hw.placed _ _
  · intro x hx
    refine hw.hashed x ?_
    rw [hunlinked] at hx
    rw [hentries]
    simp only [List.mem_append, List.mem_cons] at hx ⊢
    tauto
  · have hsize := hw.size_eq
    rw [hentries] at hsize
    rw [hunlinked]
    show map.size - 1 = _
    simp only [List.length_append, List.length_cons] at hsize ⊢
    omega

end Remove

/-! ## Visiting the entries -/

section Visits
variable {σ : Type} (callback : κ → ν → σ → σ × Bool)

/-- The context behind the calls for these entries. -/
def visit (entries : List (Entry κ ν)) (context : σ) : σ :=
  entries.foldl (fun context e => (callback e.key e.value context).1) context

/-- The callback wants more behind each of these entries. -/
def wantsMore : List (Entry κ ν) → σ → Bool
  | [], _ => true
  | e :: entries, context =>
      (callback e.key e.value context).2 && wantsMore entries (callback e.key e.value context).1

/-- The entries that are visited: all of them, or those up to the first one behind which the
callback wants no more. -/
def Visited (entries visited : List (Entry κ ν)) (context : σ) : Prop :=
  (visited = entries ∧ wantsMore callback entries context = true) ∨
    ∃ front last rest, entries = front ++ last :: rest ∧ visited = front ++ [last] ∧
      wantsMore callback front context = true ∧
      (callback last.key last.value (visit callback front context)).2 = false

theorem forEachBucket_flatten (buckets : List (List (Entry κ ν))) (context : σ) :
    forEachBucket callback buckets context = forEachChain callback buckets.flatten context := by
  have happend : ∀ (a b : List (Entry κ ν)) (context : σ), forEachChain callback (a ++ b) context =
      match forEachChain callback a context with
      | (context, true) => forEachChain callback b context
      | (context, false) => (context, false) := by
    intro a b
    induction a with
    | nil => exact fun _ => rfl
    | cons e a ih =>
      intro context
      rw [List.cons_append, forEachChain, forEachChain]
      split
      · exact ih _
      · rfl
  induction buckets generalizing context with
  | nil => rfl
  | cons entry buckets ih =>
    rw [forEachBucket, List.flatten_cons, happend]
    split
    · exact ih _
    · rfl

/-- **What a scan visits.** -/
theorem forEachChain_visited (entries : List (Entry κ ν)) (context : σ) :
    ∃ visited, Visited callback entries visited context ∧
      (forEachChain callback entries context).1 = visit callback visited context := by
  induction entries generalizing context with
  | nil => exact ⟨[], Or.inl ⟨rfl, rfl⟩, rfl⟩
  | cons e entries ih =>
    cases hcall : callback e.key e.value context with
    | mk context' more =>
      cases more with
      | false =>
        refine ⟨[e], Or.inr ⟨[], e, entries, rfl, rfl, rfl, ?_⟩, ?_⟩
        · exact congrArg Prod.snd hcall
        · simp [forEachChain, hcall, visit]
      | true =>
        obtain ⟨visited, hvisited, heq⟩ := ih context'
        refine ⟨e :: visited, ?_, ?_⟩
        · rcases hvisited with ⟨rfl, hwants⟩ | ⟨front, last, rest, rfl, rfl, hwants, hlast⟩
          · exact Or.inl ⟨rfl, by simp [wantsMore, hcall, hwants]⟩
          · refine Or.inr ⟨e :: front, last, rest, rfl, rfl, by simp [wantsMore, hcall, hwants], ?_⟩
            simpa [visit, hcall] using hlast
        · simp only [forEachChain, hcall, heq]
          simp [visit, hcall]

end Visits

/-! ## Lawful functions -/

/-- What the caller promises of the two functions of a table. -/
structure Lawful [BEq κ] (hash : κ → BitVec 32) (equals : κ → κ → Bool) : Prop where
  same : ∀ a b, (a == b) = true → equals a b = true
  refl : ∀ a, equals a a = true
  symm : ∀ a b, equals a b = true → equals b a = true
  trans : ∀ a b c, equals a b = true → equals b c = true → equals a c = true
  hash_eq : ∀ a b, equals a b = true → hash a = hash b

theorem lawful_int (memory : Nat → BitVec 32) :
    Lawful (hashmapIntHash memory) (hashmapIntEquals memory) where
  same := by
    intro a b h
    rw [eq_of_beq h]
    exact beq_self_eq_true _
  refl := fun a => beq_self_eq_true _
  symm := fun a b h => beq_iff_eq.mpr (beq_iff_eq.mp h).symm
  trans := fun a b c hab hbc => beq_iff_eq.mpr ((beq_iff_eq.mp hab).trans (beq_iff_eq.mp hbc))
  hash_eq := fun a b h => beq_iff_eq.mp h

section Refinement
variable [BEq κ] {hash : κ → BitVec 32} {equals : κ → κ → Bool}

/-- Keys that are equal are one key. -/
def Lawful.setoid (h : Lawful hash equals) : Setoid κ where
  r a b := equals a b = true
  iseqv := ⟨h.refl, fun {a b} => h.symm a b, fun {a b c} => h.trans a b c⟩

open KeyedMap

/-- The table is a table of these functions, and lists the associations of the map. -/
structure Represents (h : Lawful hash equals) (map : Hashmap κ ν) (m : Map h.setoid ν) :
    Prop where
  hash_eq : map.hash = hash
  equals_eq : map.equals = equals
  wellFormed : map.WellFormed
  distinct : Distinct h.setoid (·.key) map.entries
  denotes : denote h.setoid (·.key) (·.value) map.entries = m

variable {h : Lawful hash equals} {map : Hashmap κ ν} {m : Map h.setoid ν} {key : κ}
  {ref : EntryRef}

theorem represents_hashmapCreate (h : Lawful hash equals) (width capacity : Nat) :
    Represents h (hashmapCreate width capacity hash equals : Hashmap κ ν) fun _ => none where
  hash_eq := rfl
  equals_eq := rfl
  wellFormed := wellFormed_hashmapCreate width capacity hash equals
  distinct := by simp [Distinct, hashmapCreate, entries]
  denotes := by simp [hashmapCreate, entries]

theorem Represents.hashmapClear (hm : Represents h map m) :
    Represents h map.hashmapClear fun _ => none where
  hash_eq := hm.hash_eq
  equals_eq := hm.equals_eq
  wellFormed := hm.wellFormed.hashmapClear
  distinct := by simp [Distinct]
  denotes := by simp

theorem Represents.size_eq (hm : Represents h map m) : map.size = (bound h.setoid m).ncard := by
  rw [hm.wellFormed.size_eq, ← hm.distinct.ncard_bound, hm.denotes]

/-- The test of a scan is the comparison of the keys. -/
theorem Represents.found_iff (hm : Represents h map m) {e : Entry κ ν} (he : e ∈ map.entries) :
    map.found key e = true ↔ h.setoid e.key key := by
  show equalKeys e.key e.hash key (map.hashKey key) map.equals = true ↔ equals e.key key = true
  unfold equalKeys
  split
  · rename_i hsame
    exact iff_of_true rfl (h.same _ _ hsame)
  · split
    · rename_i hhash
      refine iff_of_false (by decide) fun hequals => ?_
      rw [hm.wellFormed.hashed e he, hashKey, hashKey, hm.hash_eq, h.hash_eq _ _ hequals] at hhash
      simp at hhash
    · rw [hm.equals_eq]

theorem Represents.entryGet_none (hm : Represents h map m) (hget : map.entryGet key = none) :
    m (Quotient.mk _ key) = none := by
  rw [← hm.denotes, denote_eq_none_iff]
  intro e he hmk
  have hequals : equals e.key key = true := mk_eq_iff.mp hmk
  have hhash : e.hash = map.hashKey key := by
    rw [hm.wellFormed.hashed e he, hashKey, hashKey, hm.hash_eq, h.hash_eq _ _ hequals]
  have hnot := Hashmap.entryGet_none hget hm.wellFormed e he hhash
  rw [(hm.found_iff he).mpr hequals] at hnot
  cases hnot

/-- The value of the entry that `entryGet` finds is the value of the key. -/
theorem Represents.entryGet_some (hm : Represents h map m) (hget : map.entryGet key = some ref) :
    (map.entryAt ref).map (·.value) = m (Quotient.mk _ key) := by
  obtain ⟨front, e, rest, hentries, hat, hfound, -⟩ := Hashmap.entryGet_some hget
  have he : e ∈ map.entries := by
    rw [hentries]
    simp
  have hmk : Quotient.mk h.setoid e.key = Quotient.mk _ key :=
    mk_eq_iff.mpr ((hm.found_iff he).mp hfound)
  rw [hat, ← hm.denotes, ← hmk]
  exact (hm.distinct.denote_mem he).symm

theorem Represents.hashmapGet (hm : Represents h map m) (key : κ) :
    map.hashmapGet key = m (Quotient.mk _ key) := by
  rw [hashmapGet_eq]
  cases hget : map.entryGet key with
  | none => exact (hm.entryGet_none hget).symm
  | some ref => exact hm.entryGet_some hget

theorem containsKey_eq (map : Hashmap κ ν) (key : κ) :
    map.hashmapContainsKey key = (map.hashmapGet key).isSome := by
  rw [hashmapContainsKey, hashmapGet, Option.isSome_map, Bool.eq_iff_iff, List.find?_isSome,
    List.any_eq_true]

theorem Represents.setValue (hm : Represents h map m) (hget : map.entryGet key = some ref)
    (value : ν) :
    Represents h (map.setValue ref value) (assign _ m (Quotient.mk _ key) (some value)) := by
  obtain ⟨front, e, rest, hentries, -, hfound, hset⟩ := Hashmap.entryGet_some hget
  have hdistinct := hm.distinct
  have hdenotes := hm.denotes
  rw [hentries] at hdistinct hdenotes
  have hmk : Quotient.mk h.setoid e.key = Quotient.mk _ key :=
    mk_eq_iff.mpr ((hm.found_iff (hentries ▸ by simp)).mp hfound)
  refine ⟨hm.hash_eq, hm.equals_eq, hm.wellFormed.setValue hget value, ?_, ?_⟩
  · rw [hset]
    exact hdistinct.replace rfl
  · have hreplaced : denote h.setoid (·.key) (·.value) (front ++ { e with value } :: rest) =
        assign _ (denote h.setoid (·.key) (·.value) (front ++ e :: rest)) (Quotient.mk _ e.key)
          (some value) := hdistinct.denote_replace rfl
    rw [hset, hreplaced, hdenotes]
    exact congrArg (fun q => assign _ m q (some value)) hmk

/-- An entry more, wherever it stands. -/
theorem Represents.newEntry (hm : Represents h map m) (hget : map.entryGet key = none)
    (callocOk : Bool) (value : ν) :
    Represents h (map.hashmapPut key true callocOk value).1
      (assign _ m (Quotient.mk _ key) (some value)) := by
  obtain ⟨hwell, hperm, hhash, hequals⟩ := hashmapPut_absent callocOk value hm.wellFormed hget
  have hdistinct : Distinct h.setoid (·.key) (map.newEntry key value :: map.entries) := by
    refine distinct_cons.mpr ⟨fun e he hsame => ?_, hm.distinct⟩
    have hnone := hm.entryGet_none hget
    rw [← hm.denotes, denote_eq_none_iff] at hnone
    exact hnone e he (mk_eq_iff.mpr (h.symm _ _ hsame))
  refine ⟨hhash.trans hm.hash_eq, hequals.trans hm.equals_eq, hwell, hdistinct.perm hperm.symm, ?_⟩
  rw [hdistinct.denote_perm hperm.symm, denote_cons, hm.denotes]
  rfl

theorem Represents.unlink (hm : Represents h map m) (hget : map.entryGet key = some ref) :
    Represents h (map.unlink ref) (assign _ m (Quotient.mk _ key) none) := by
  obtain ⟨front, e, rest, hentries, -, hfound, hunlinked⟩ := entries_unlink hget
  have hdistinct := hm.distinct
  have hdenotes := hm.denotes
  rw [hentries] at hdistinct hdenotes
  have hmk : Quotient.mk h.setoid e.key = Quotient.mk _ key :=
    mk_eq_iff.mpr ((hm.found_iff (hentries ▸ by simp)).mp hfound)
  refine ⟨hm.hash_eq, hm.equals_eq, hm.wellFormed.unlink hget, ?_, ?_⟩
  · rw [hunlinked]
    exact hdistinct.erase
  · rw [hunlinked, hdistinct.denote_erase, hdenotes]
    exact congrArg (fun q => assign _ m q none) hmk

open Classical in
/-- What a call means for the map.  A new key needs its entry, and nothing else can fail. -/
noncomputable def meaning (s : Setoid κ) (m : Map s ν) : Request κ ν → Map s ν × Answer ν
  | .put key value entryOk _ =>
      (if entryOk = true ∨ m (Quotient.mk s key) ≠ none then
          assign s m (Quotient.mk s key) (some value)
        else m,
        .value (m (Quotient.mk s key)))
  | .get key => (m, .value (m (Quotient.mk s key)))
  | .containsKey key => (m, .flag (m (Quotient.mk s key)).isSome)
  | .memoize key initialValue entryOk _ =>
      match m (Quotient.mk s key) with
      | some value => (m, .value (some value))
      | none =>
          if entryOk then
            (assign s m (Quotient.mk s key) (some (initialValue key)),
              .value (some (initialValue key)))
          else (m, .value none)
  | .remove key => (assign s m (Quotient.mk s key) none, .value (m (Quotient.mk s key)))
  | .clear => (fun _ => none, .done)
  | .size => (m, .count (bound s m).ncard)

theorem Represents.hashmapPut (hm : Represents h map m) (key : κ) (value : ν)
    (entryOk callocOk : Bool) :
    Represents h (map.perform (.put key value entryOk callocOk)).1
        (meaning _ m (.put key value entryOk callocOk)).1 ∧
      (map.perform (.put key value entryOk callocOk)).2 =
        (meaning _ m (.put key value entryOk callocOk)).2 := by
  cases hget : map.entryGet key with
  | none =>
    have hnone := hm.entryGet_none hget
    cases entryOk with
    | false => simpa [perform, meaning, hnone, Hashmap.hashmapPut, hget] using hm
    | true =>
      have hput : (map.hashmapPut key true callocOk value).2 = none := by
        simp [Hashmap.hashmapPut, hget]
      simpa [perform, meaning, hnone, hput] using hm.newEntry hget callocOk value
  | some ref =>
    have hsome := hm.entryGet_some hget
    obtain ⟨-, e, -, -, hat, -⟩ := Hashmap.entryGet_some hget
    rw [hat] at hsome
    have hput : map.hashmapPut key entryOk callocOk value =
        (map.setValue ref value, some e.value) := by
      simp [Hashmap.hashmapPut, hget, hat]
    simpa [perform, meaning, hput, ← hsome] using hm.setValue hget value

theorem Represents.hashmapMemoize (hm : Represents h map m) (key : κ) (initialValue : κ → ν)
    (entryOk callocOk : Bool) :
    Represents h (map.perform (.memoize key initialValue entryOk callocOk)).1
        (meaning _ m (.memoize key initialValue entryOk callocOk)).1 ∧
      (map.perform (.memoize key initialValue entryOk callocOk)).2 =
        (meaning _ m (.memoize key initialValue entryOk callocOk)).2 := by
  cases hget : map.entryGet key with
  | none =>
    have hnone := hm.entryGet_none hget
    cases entryOk with
    | false => simpa [perform, meaning, hnone, Hashmap.hashmapMemoize, hget] using hm
    | true =>
      simpa [perform, meaning, hnone, Hashmap.hashmapMemoize, hget] using
        hm.newEntry hget callocOk (initialValue key)
  | some ref =>
    have hsome := hm.entryGet_some hget
    obtain ⟨-, e, -, -, hat, -⟩ := Hashmap.entryGet_some hget
    rw [hat] at hsome
    have hmemoize : map.hashmapMemoize key entryOk callocOk initialValue = (map, some e.value) := by
      simp [Hashmap.hashmapMemoize, hget, hat]
    simpa [perform, meaning, hmemoize, ← hsome] using hm

theorem Represents.hashmapRemove (hm : Represents h map m) (key : κ) :
    Represents h (map.perform (.remove key)).1 (meaning _ m (.remove key)).1 ∧
      (map.perform (.remove key)).2 = (meaning _ m (.remove key)).2 := by
  cases hget : map.entryGet key with
  | none =>
    have hnone := hm.entryGet_none hget
    have hassign : assign _ m (Quotient.mk _ key) none = m := by
      funext q
      by_cases hq : q = Quotient.mk _ key
      · rw [hq, assign_self, hnone]
      · rw [assign_of_ne hq]
    simpa [perform, meaning, hnone, Hashmap.hashmapRemove, hget, hassign] using hm
  | some ref =>
    have hremove : map.hashmapRemove key = (map.unlink ref, m (Quotient.mk _ key)) := by
      simp [Hashmap.hashmapRemove, hget, hm.entryGet_some hget]
    simpa [perform, meaning, hremove] using hm.unlink hget

/-- **Every call does to the table what it means for the map.** -/
theorem Represents.perform (hm : Represents h map m) (request : Request κ ν) :
    Represents h (map.perform request).1 (meaning _ m request).1 ∧
      (map.perform request).2 = (meaning _ m request).2 := by
  cases request with
  | put key value entryOk callocOk => exact hm.hashmapPut key value entryOk callocOk
  | get key => exact ⟨hm, congrArg Answer.value (hm.hashmapGet key)⟩
  | containsKey key =>
    refine ⟨hm, congrArg Answer.flag ?_⟩
    rw [containsKey_eq, hm.hashmapGet]
  | memoize key initialValue entryOk callocOk =>
    exact hm.hashmapMemoize key initialValue entryOk callocOk
  | remove key => exact hm.hashmapRemove key
  | clear => exact ⟨hm.hashmapClear, rfl⟩
  | size => exact ⟨hm, congrArg Answer.count hm.size_eq⟩

theorem simulates_meaning (h : Lawful hash equals) :
    Machine.Simulates (Represents h : Hashmap κ ν → Map h.setoid ν → Prop)
      (Machine.total perform) (Machine.total (meaning h.setoid)) := by
  rintro map m request m' answer hm hmeaning
  have heq : meaning _ m request = (m', answer) := Option.some.inj hmeaning
  obtain ⟨hrep, hanswer⟩ := hm.perform request
  rw [heq] at hrep hanswer
  exact ⟨_, congrArg (fun a => some (_, a)) hanswer, hrep⟩

/-- **A scan calls back for each binding of the map once**, or for different bindings up to the
first one behind which the callback wants no more. -/
theorem Represents.hashmapForEach {σ : Type} (hm : Represents h map m)
    (callback : κ → ν → σ → σ × Bool) (context : σ) :
    ∃ visited, map.hashmapForEach callback context = visit callback visited context ∧
      Distinct h.setoid (·.key) visited ∧
      (∀ e ∈ visited, m (Quotient.mk _ e.key) = some e.value) ∧
      ((denote h.setoid (·.key) (·.value) visited = m ∧ wantsMore callback visited context = true) ∨
        ∃ front last, visited = front ++ [last] ∧ wantsMore callback front context = true ∧
          (callback last.key last.value (visit callback front context)).2 = false) := by
  obtain ⟨visited, hvisited, heq⟩ := forEachChain_visited callback map.entries context
  have hsub : visited.Sublist map.entries := by
    rcases hvisited with ⟨rfl, -⟩ | ⟨front, last, rest, hentries, rfl, -⟩
    · exact List.Sublist.refl _
    · have hcut : map.entries = front ++ [last] ++ rest := by simp [hentries]
      rw [hcut]
      exact List.sublist_append_left _ _
  refine ⟨visited, ?_, hm.distinct.sublist hsub, fun e he => ?_, ?_⟩
  · rw [Hashmap.hashmapForEach, forEachBucket_flatten]
    exact heq
  · rw [← hm.denotes]
    exact hm.distinct.denote_mem (hsub.subset he)
  · rcases hvisited with ⟨rfl, hwants⟩ | ⟨front, last, rest, -, rfl, hwants, hlast⟩
    · exact Or.inl ⟨hm.denotes, hwants⟩
    · exact Or.inr ⟨front, last, rfl, hwants, hlast⟩

end Refinement
end Hashmap
end Chttpc
