import Chttpc.HashmapRefines

/-!
# How the hash table of `hashmap.c` grows

A table doubles its buckets when a new entry exceeds three quarters of them, and moves all its
entries then.  `afterAll` is the table behind a list of calls, `rehashed` counts the entries
that were moved on the way, and `peak` is the largest number of entries.

If every new array of buckets can be allocated, the table has at every moment the fewest
buckets that its doubling reaches for the largest number of entries so far (`Grown`), so the
capacity it was created for is there from the beginning, unless the product that
`hashmapCreate` makes of it has wrapped around.  A move of all entries is paid for by the
buckets it adds, and so the entries moved in a run are fewer than three for each entry of the
largest table: `growth_of_run`.

An array that can be allocated has a size in bytes, so that what `expandIfNecessary` computes
in a `size_t` does not wrap around: `Grown.exact`.
-/

namespace Chttpc.Hashmap
variable {κ ν : Type}

def hashmapCurrentCapacity (map : Hashmap κ ν) : Nat := map.bucketCount * 3 / 4

/-- The new array of buckets can be allocated, if the call needs one. -/
def Request.callocOk : Request κ ν → Bool
  | .put _ _ _ callocOk => callocOk
  | .memoize _ _ _ callocOk => callocOk
  | _ => true

section Runs
variable [BEq κ]

def afterAll (map : Hashmap κ ν) (requests : List (Request κ ν)) : Hashmap κ ν :=
  requests.foldl (fun map request => (map.perform request).1) map

/-- The entries that a call moves: all of them, if it grows the table. -/
def moved (map : Hashmap κ ν) (request : Request κ ν) : Nat :=
  if (map.perform request).1.bucketCount = map.bucketCount then 0 else (map.perform request).1.size

/-- The entries that are moved in a run. -/
def rehashed : Hashmap κ ν → List (Request κ ν) → Nat
  | _, [] => 0
  | map, request :: requests => moved map request + rehashed (map.perform request).1 requests

/-- The largest size in a run. -/
def peak : Hashmap κ ν → List (Request κ ν) → Nat
  | map, [] => map.size
  | map, request :: requests => max map.size (peak (map.perform request).1 requests)

end Runs

/-! ## What a call does to the number of buckets -/

theorem bucketCount_expandIfNecessary (map : Hashmap κ ν) :
    (map.expandIfNecessary true).bucketCount =
      if map.bucketCount * 3 / 4 < map.size then map.bucketCount * 2 else map.bucketCount := by
  have hlength : ∀ (l : List (Entry κ ν)) (n : Nat) (nb : List (List (Entry κ ν))),
      (l.foldl (place n) nb).length = nb.length := by
    intro l n
    induction l with
    | nil => exact fun _ => rfl
    | cons e l ih => exact fun nb => (ih _).trans (List.length_modify ..)
  unfold expandIfNecessary
  split
  · rw [if_pos rfl]
    show (map.buckets.foldl (fun nb chain => chain.foldl (place (map.bucketCount <<< 1)) nb)
      (List.replicate (map.bucketCount <<< 1) [])).length = map.bucketCount * 2
    rw [← List.foldl_flatten, hlength, List.length_replicate, Nat.shiftLeft_eq, Nat.pow_one]
  · rfl

theorem size_expandIfNecessary (callocOk : Bool) (map : Hashmap κ ν) :
    (map.expandIfNecessary callocOk).size = map.size := by
  unfold expandIfNecessary
  split
  · split <;> rfl
  · rfl

section Steps
variable [BEq κ] {map : Hashmap κ ν} {key : κ}

/-- A new entry, and the growth that it causes. -/
theorem hashmapPut_new (hget : map.entryGet key = none) (value : ν) :
    (map.hashmapPut key true true value).1.size = map.size + 1 ∧
      (map.hashmapPut key true true value).1.bucketCount =
        if map.bucketCount * 3 / 4 < map.size + 1 then map.bucketCount * 2
        else map.bucketCount := by
  simp only [hashmapPut, hget, if_true, size_expandIfNecessary, bucketCount_expandIfNecessary]
  simp [bucketCount]

/-- **A call adds an entry**, or it leaves the buckets as many as they are, and adds nothing. -/
theorem perform_cases (map : Hashmap κ ν) {request : Request κ ν} (hcalloc : request.callocOk = true) :
    ((map.perform request).1.bucketCount = map.bucketCount ∧
      (map.perform request).1.size ≤ map.size) ∨
    ((map.perform request).1.size = map.size + 1 ∧
      (map.perform request).1.bucketCount =
        if map.bucketCount * 3 / 4 < map.size + 1 then map.bucketCount * 2
        else map.bucketCount) := by
  cases request with
  | put key value entryOk callocOk =>
    cases (hcalloc : callocOk = true)
    cases hget : map.entryGet key with
    | none =>
      cases entryOk with
      | false => exact Or.inl (by simp [perform, hashmapPut, hget])
      | true => exact Or.inr (hashmapPut_new hget value)
    | some ref => exact Or.inl (by simp [perform, hashmapPut, hget, setValue, bucketCount])
  | memoize key initialValue entryOk callocOk =>
    cases (hcalloc : callocOk = true)
    cases hget : map.entryGet key with
    | none =>
      cases entryOk with
      | false => exact Or.inl (by simp [perform, hashmapMemoize, hget])
      | true =>
        have hnew := hashmapPut_new hget (initialValue key)
        exact Or.inr (by simpa [perform, hashmapMemoize, hget] using hnew)
    | some ref => exact Or.inl (by simp [perform, hashmapMemoize, hget])
  | remove key =>
    cases hget : map.entryGet key with
    | none => exact Or.inl (by simp [perform, hashmapRemove, hget])
    | some ref => exact Or.inl (by simp [perform, hashmapRemove, hget, unlink, bucketCount])
  | clear => exact Or.inl (by simp [perform, hashmapClear, bucketCount])
  | get key => exact Or.inl ⟨rfl, Nat.le_refl _⟩
  | containsKey key => exact Or.inl ⟨rfl, Nat.le_refl _⟩
  | size => exact Or.inl ⟨rfl, Nat.le_refl _⟩

/-! ## The table is as large as its largest size asks for -/

omit [BEq κ] in
/-- A table that was created with `start` buckets and has had `high` entries. -/
structure Grown (start high : Nat) (map : Hashmap κ ν) : Prop where
  positive : 0 < map.bucketCount
  size_le : map.size ≤ high
  fits : high ≤ map.hashmapCurrentCapacity
  least : map.bucketCount = start ∨ ∃ half, map.bucketCount = half * 2 ∧ half * 3 / 4 < high
  doubled : ∃ k, map.bucketCount = start * 2 ^ k

variable {start high : Nat}

/-- What a call moves is no more than the buckets it adds. -/
theorem Grown.perform (h : Grown start high map) {request : Request κ ν}
    (hcalloc : request.callocOk = true) :
    Grown start (max high (map.perform request).1.size) (map.perform request).1 ∧
      moved map request + map.bucketCount ≤ (map.perform request).1.bucketCount := by
  have hpositive := h.positive
  have hsize := h.size_le
  have hfits := h.fits
  rw [hashmapCurrentCapacity] at hfits
  rcases perform_cases map hcalloc with ⟨hcount, hle⟩ | ⟨hadd, hcount⟩
  · have hhigh : max high (map.perform request).1.size = high := by omega
    rw [hhigh, moved, if_pos hcount, hcount, Nat.zero_add]
    refine ⟨⟨?_, by omega, ?_, ?_, ?_⟩, Nat.le_refl _⟩
    · rwa [hcount]
    · rwa [hashmapCurrentCapacity, hcount]
    · rw [hcount]
      exact h.least
    · rw [hcount]
      exact h.doubled
  · by_cases hfull : map.bucketCount * 3 / 4 < map.size + 1
    · -- the table was full, and its size is the largest one so far
      rw [if_pos hfull] at hcount
      have hmoved : moved map request = map.size + 1 := by
        rw [moved, if_neg (by omega), hadd]
      rw [hmoved, hadd, hcount]
      refine ⟨⟨by omega, by omega, ?_, Or.inr ⟨map.bucketCount, hcount, by omega⟩, ?_⟩, by omega⟩
      · rw [hashmapCurrentCapacity, hcount]
        omega
      · obtain ⟨k, hk⟩ := h.doubled
        exact ⟨k + 1, by rw [hcount, hk, Nat.pow_succ, Nat.mul_assoc]⟩
    · rw [if_neg hfull] at hcount
      rw [moved, if_pos hcount, hcount, hadd, Nat.zero_add]
      refine ⟨⟨by omega, by omega, ?_, ?_, ?_⟩, Nat.le_refl _⟩
      · rw [hashmapCurrentCapacity, hcount]
        omega
      · rcases h.least with hstart | ⟨half, hhalf, hlt⟩
        · exact Or.inl (hcount.trans hstart)
        · exact Or.inr ⟨half, hcount.trans hhalf, by omega⟩
      · rw [hcount]
        exact h.doubled

/-- The invariant along a run. -/
theorem Grown.afterAll {map : Hashmap κ ν} {high : Nat} (h : Grown start high map) :
    ∀ {requests : List (Request κ ν)}, (∀ request ∈ requests, request.callocOk = true) →
      Grown start (max high (peak map requests)) (map.afterAll requests) ∧
        rehashed map requests + map.bucketCount ≤ (map.afterAll requests).bucketCount
  | [], _ => by
      have hhigh : max high (peak map []) = high := Nat.max_eq_left h.size_le
      rw [hhigh]
      exact ⟨h, Nat.le_of_eq (Nat.zero_add _)⟩
  | request :: requests, hcalloc => by
      obtain ⟨h₁, hmoved⟩ := h.perform (hcalloc request List.mem_cons_self)
      obtain ⟨h₂, hlater⟩ := h₁.afterAll fun r hr => hcalloc r (List.mem_cons_of_mem _ hr)
      have hfirst : (map.perform request).1.size ≤ peak (map.perform request).1 requests := by
        cases requests with
        | nil => exact Nat.le_refl _
        | cons _ _ => exact Nat.le_max_left _ _
      have hsize := h.size_le
      have hhigh : max (max high (map.perform request).1.size)
          (peak (map.perform request).1 requests) = max high (peak map (request :: requests)) := by
        rw [peak]
        omega
      refine ⟨hhigh ▸ h₂, ?_⟩
      rw [rehashed]
      exact Nat.le_trans (by omega) hlater

omit [BEq κ] in
/-- The loop of `hashmapCreate` ends with more buckets than it asks for. -/
theorem lt_bucketsFor (minimum : Nat) :
    ∀ fuel count, minimum < count * 2 ^ fuel → minimum < bucketsFor minimum fuel count
  | 0, count, h => by simpa [bucketsFor] using h
  | fuel + 1, count, h => by
      rw [bucketsFor]
      split
      · refine lt_bucketsFor minimum fuel _ ?_
        rwa [Nat.shiftLeft_eq, Nat.pow_one, Nat.mul_assoc, ← Nat.pow_succ']
      · omega

/-- The table has no fewer buckets behind a run than at any moment of it. -/
theorem Grown.bucketCount_mono {map : Hashmap κ ν} (h : Grown start high map)
    {requests before : List (Request κ ν)}
    (hcalloc : ∀ request ∈ requests, request.callocOk = true) (hbefore : before <+: requests) :
    (map.afterAll before).bucketCount ≤ (map.afterAll requests).bucketCount := by
  obtain ⟨rest, rfl⟩ := hbefore
  have hat := (h.afterAll fun r hr => hcalloc r (List.mem_append_left _ hr)).1
  have hlater := (hat.afterAll fun r hr => hcalloc r (List.mem_append_right _ hr)).2
  have hlast : map.afterAll (before ++ rest) = (map.afterAll before).afterAll rest :=
    List.foldl_append
  rw [hlast]
  omega

/-- **Nothing wraps around in a run**, if its last array has a size: a pointer has four bytes
or more. -/
theorem Grown.exact {map : Hashmap κ ν} (h : Grown start high map) {width : Nat}
    {requests before : List (Request κ ν)}
    (hcalloc : ∀ request ∈ requests, request.callocOk = true)
    (hlast : (map.afterAll requests).bucketCount * 4 < 2 ^ width) (hbefore : before <+: requests) :
    (map.afterAll before).bucketCount * 3 < 2 ^ width := by
  have hmono := h.bucketCount_mono hcalloc hbefore
  omega

omit [BEq κ] in
theorem bucketCount_hashmapCreate (width capacity : Nat) (hash : κ → BitVec 32)
    (equals : κ → κ → Bool) :
    minimumBucketCount width capacity <
      (hashmapCreate width capacity hash equals : Hashmap κ ν).bucketCount := by
  have hcount : (hashmapCreate width capacity hash equals : Hashmap κ ν).bucketCount =
      bucketsFor (minimumBucketCount width capacity) (minimumBucketCount width capacity + 1) 1 := by
    simp [hashmapCreate, bucketCount]
  rw [hcount]
  refine lt_bucketsFor _ _ _ ?_
  rw [Nat.one_mul]
  exact Nat.lt_of_succ_lt Nat.lt_two_pow_self

omit [BEq κ] in
/-- A new table has room for the entries it was created for, if that number fits. -/
theorem capacity_hashmapCreate {width capacity : Nat} (hcapacity : capacity * 4 < 2 ^ width)
    (hash : κ → BitVec 32) (equals : κ → κ → Bool) :
    capacity ≤
      (hashmapCreate width capacity hash equals : Hashmap κ ν).hashmapCurrentCapacity := by
  have hlt : minimumBucketCount width capacity <
      (hashmapCreate width capacity hash equals : Hashmap κ ν).bucketCount :=
    bucketCount_hashmapCreate width capacity hash equals
  rw [minimumBucketCount, Nat.mod_eq_of_lt hcapacity] at hlt
  rw [hashmapCurrentCapacity]
  omega

omit [BEq κ] in
theorem grown_hashmapCreate (width capacity : Nat) (hash : κ → BitVec 32)
    (equals : κ → κ → Bool) :
    Grown (hashmapCreate width capacity hash equals : Hashmap κ ν).bucketCount 0
      (hashmapCreate width capacity hash equals : Hashmap κ ν) where
  positive := Nat.zero_lt_of_lt (bucketCount_hashmapCreate width capacity hash equals)
  size_le := Nat.le_refl _
  fits := Nat.zero_le _
  least := Or.inl rfl
  doubled := ⟨0, by simp⟩

/-- **The growth of a table whose arrays of buckets can all be allocated.**  What is computed
in a `size_t` of the width does not wrap around.  The table has the fewest buckets that
doubling reaches for its largest size; it moves no entry as long as it has no more than it was
created for, unless that number is too large for `hashmapCreate`; and it moves fewer than three
entries for each one of its largest size. -/
theorem growth_of_run (width capacity : Nat) (hash : κ → BitVec 32) (equals : κ → κ → Bool)
    {requests : List (Request κ ν)} (hcalloc : ∀ request ∈ requests, request.callocOk = true) :
    let first : Hashmap κ ν := hashmapCreate width capacity hash equals
    let last := first.afterAll requests
    last.bucketCount * 4 < 2 ^ width →
    (∀ before, before <+: requests → (first.afterAll before).bucketCount * 3 < 2 ^ width) ∧
    (∃ k, last.bucketCount = first.bucketCount * 2 ^ k ∧
      peak first requests ≤ last.bucketCount * 3 / 4 ∧
      ∀ j < k, first.bucketCount * 2 ^ j * 3 / 4 < peak first requests) ∧
    (capacity * 4 < 2 ^ width → peak first requests ≤ capacity →
      last.bucketCount = first.bucketCount ∧ rehashed first requests = 0) ∧
    3 * rehashed first requests ≤ 8 * peak first requests := by
  intro first last hlast
  have hcreated : Grown first.bucketCount 0 first := grown_hashmapCreate width capacity hash equals
  have hpositive := hcreated.positive
  obtain ⟨hgrown, hmoved⟩ : Grown first.bucketCount (peak first requests) last ∧
      rehashed first requests + first.bucketCount ≤ last.bucketCount := by
    simpa using hcreated.afterAll hcalloc
  obtain ⟨k, hk⟩ := hgrown.doubled
  have hfits : peak first requests ≤ last.bucketCount * 3 / 4 := hgrown.fits
  have hleast : ∀ j < k, first.bucketCount * 2 ^ j * 3 / 4 < peak first requests := by
    intro j hj
    obtain ⟨k, rfl⟩ : ∃ d, k = d + 1 := ⟨k - 1, by omega⟩
    have hhalf : first.bucketCount * 2 ^ j ≤ first.bucketCount * 2 ^ k :=
      Nat.mul_le_mul_left _ (Nat.pow_le_pow_right (by decide) (by omega))
    rw [Nat.pow_succ, ← Nat.mul_assoc] at hk
    rcases hgrown.least with hstart | ⟨half, heq, hlt⟩
    · have hone : first.bucketCount ≤ first.bucketCount * 2 ^ k :=
        Nat.le_mul_of_pos_right _ (Nat.two_pow_pos k)
      omega
    · omega
  refine ⟨fun before => hcreated.exact hcalloc hlast, ⟨k, hk, hfits, hleast⟩,
    fun hcapacity hpeak => ?_, ?_⟩
  · have hroom : capacity ≤ first.bucketCount * 3 / 4 :=
      capacity_hashmapCreate hcapacity hash equals
    rcases Nat.eq_zero_or_pos k with rfl | hk'
    · rw [Nat.pow_zero, Nat.mul_one] at hk
      exact ⟨hk, by omega⟩
    · have hfirst := hleast 0 hk'
      rw [Nat.pow_zero, Nat.mul_one] at hfirst
      omega
  · rcases Nat.eq_zero_or_pos k with rfl | hk'
    · rw [Nat.pow_zero, Nat.mul_one] at hk
      omega
    · obtain ⟨k, rfl⟩ : ∃ d, k = d + 1 := ⟨k - 1, by omega⟩
      have hbefore := hleast k (Nat.lt_succ_self k)
      rw [Nat.pow_succ, ← Nat.mul_assoc] at hk
      omega

/-- Four entries in a table for two: nothing is moved for the first two, and the growth that the
last one brings moves all four. -/
theorem growth_of_run_four :
    let requests : List (Request Nat Char) :=
      [.put 1 'a' true true, .put 2 'b' true true, .put 3 'c' true true, .put 4 'd' true true]
    let first : Hashmap Nat Char := hashmapCreate 32 2 (BitVec.ofNat 32) fun a b => a == b
    rehashed first requests = 4 ∧ 3 * rehashed first requests ≤ 8 * peak first requests ∧
      rehashed first (requests.take 2) = 0 := by
  refine ⟨by decide, ?_, ?_⟩
  · exact (growth_of_run 32 2 _ _ (by simp [Request.callocOk]) (by decide)).2.2.2
  · exact ((growth_of_run 32 2 _ _ (by simp [Request.callocOk]) (by decide)).2.2.1 (by decide)
      (by decide)).2

end Steps
end Chttpc.Hashmap
