import Chttpc.RequestReadback
import Chttpc.BodyCallback
import Mathlib.Order.Lattice

/-!
# The scratch buffer of `getRequestHeaders`

A header is turned into UTF-16 in a buffer that all headers share.  It has 4096 bytes at
first, and is reallocated to what a header needs when that is not below `tempBufferSize`.
The variable is never set again, so after a long header it is not the size of the buffer any
more, and a header that is long but shorter makes the buffer smaller.

What keeps this safe is that no reallocation is to less than `tempBufferSize`: the buffer is
at least as large as the variable says at all times, and a header that is not compared with
the real size is smaller than that.  `resized` is this rule on its own.

The lengths are of type `size_t`, and a difference below zero wraps around.  `Scratch` is the
buffer with the calls of `headerToString` so far, each with its length and the size that the
buffer has then.  `scanRequestHeaders` is the loop with the buffer; what it stores in the
array is what `writeRequestHeaders` does.
-/

namespace Chttpc

/-! ## A block behind a size that is not kept up to date -/

section Resized
variable {α : Type*} [LinearOrder α] {tracked need held : α}

/-- The size of a block after a need for space, if the block is made as large as the need
when this is not below the size that is on record. -/
def resized (tracked need held : α) : α := if tracked ≤ need then need else held

theorem need_le_resized (h : tracked ≤ held) : need ≤ resized tracked need held := by
  unfold resized
  split
  · exact le_rfl
  · rename_i hlt
    exact (not_le.mp hlt).le.trans h

theorem tracked_le_resized (h : tracked ≤ held) : tracked ≤ resized tracked need held := by
  unfold resized
  split
  · assumption
  · exact h

end Resized

/-! ## The loop -/

/-- The size of an object is below this, so that two pointers into it have a difference. -/
def Platform.maxObject (platform : Platform) : Nat := 2 ^ (platform.sizeBits - 1)

theorem Platform.two_mul_maxObject (platform : Platform) :
    2 * platform.maxObject = 2 ^ platform.sizeBits := by
  have hpos := platform.int_le
  rw [maxObject, ← Nat.pow_succ', Nat.succ_eq_add_one, Nat.sub_add_cancel (by omega)]

namespace CurlData

/-- `int32_t tempBufferSize`. -/
def tempBufferSize : Int := 4 * 1024

/-- `strchr(entry->data, ':')`, as an index. -/
def keyEnd (entry : List UInt8) : Option Nat :=
  let colon := entry.findIdx (· == 58)
  if colon < entry.length then some colon else none

/-- `keyEnd[1] == '\0'`. -/
def isStub (entry : List UInt8) : Bool := (keyEnd entry).any (· + 1 == entry.length)

/-- What `keyLen` is assigned: `keyEnd - entry->data`, or else `entryLen - 1`. -/
def keyDifference (entry : List UInt8) : Int :=
  match keyEnd entry with
  | some colon => colon
  | none => entry.length - 1

def keyLen (platform : Platform) (entry : List UInt8) : Nat :=
  platform.toSizeT (keyDifference entry)

def valueLen (platform : Platform) (entry : List UInt8) : Nat :=
  platform.toSizeT (entry.length - keyLen platform entry - 1)

def maxLen (platform : Platform) (entry : List UInt8) : Nat :=
  platform.toSizeT (2 * max (keyLen platform entry) (valueLen platform entry) : Nat)

/-- A call of `headerToString`: its argument `len`, and the size of the buffer in bytes. -/
structure Conversion where
  len : Nat
  bufferSize : Nat

/-- The buffer, with the calls that have used it. -/
structure Scratch where
  bufferSize : Nat
  conversions : List Conversion

namespace Scratch

/-- The buffer that is allocated first. -/
def malloc (platform : Platform) : Scratch := ⟨platform.toSizeT tempBufferSize, []⟩

/-- `realloc`, if the comparison asks for it. -/
def reserve (platform : Platform) (size : Nat) (s : Scratch) : Scratch :=
  { s with bufferSize := resized (platform.toSizeT tempBufferSize) size s.bufferSize }

def headerToString (len : Nat) (s : Scratch) : Scratch :=
  { s with conversions := s.conversions ++ [⟨len, s.bufferSize⟩] }

end Scratch

/-- The loop of `getRequestHeaders` with its buffer. -/
def scanRequestHeaders (platform : Platform) (alloc : ArrayAlloc) :
    List (List UInt8) → Scratch → HeaderWriter → Scratch × Except Stop HeaderWriter
  | [], s, w => (s, .ok w)
  | data :: outHeaders, s, w =>
      let entry := cString data
      if isStub entry then scanRequestHeaders platform alloc outHeaders s w
      else
        let s := (s.reserve platform (maxLen platform entry)).headerToString (keyLen platform entry)
        match w.put platform alloc (entry.take (keyLen platform entry)) with
        | .error stop => (s, .error stop)
        | .ok w =>
            -- without a colon the pointer to the value is none, and the length is 0
            let s := s.headerToString (valueLen platform entry)
            match w.put platform alloc
              ((entry.drop (keyLen platform entry + 1)).take (valueLen platform entry)) with
            | .error stop => (s, .error stop)
            | .ok w => scanRequestHeaders platform alloc outHeaders s w

/-- The two differences are what they are without wrapping around. -/
structure Unwrapped (platform : Platform) (entry : List UInt8) : Prop where
  keyLen_eq : (keyLen platform entry : Int) = keyDifference entry
  valueLen_eq : (valueLen platform entry : Int) = entry.length - keyLen platform entry - 1

/-- A string of the list: it has a character at least, and with its NUL it is an object. -/
structure HeldEntry (platform : Platform) (data : List UInt8) : Prop where
  nonempty : cString data ≠ []
  length_lt : (cString data).length < platform.maxObject

theorem heldEntry_cons {platform : Platform} {c : UInt8} {rest : List UInt8} (hc : c ≠ 0)
    (hlen : (c :: rest).length < platform.maxObject) : HeldEntry platform (c :: rest) where
  nonempty := by
    rw [cString_cons hc]
    exact List.cons_ne_nil _ _
  length_lt := (List.takeWhile_prefix _).length_le.trans_lt hlen

/-! ## The lengths -/

section Lengths
variable {platform : Platform} {entry : List UInt8}

/-- A number that an object may have as its size, or twice such a number. -/
theorem toSizeT_of_nonneg {n : Int} (hlow : 0 ≤ n) (hhigh : n < 2 * platform.maxObject) :
    (platform.toSizeT n : Int) = n := by
  have hmax := platform.two_mul_maxObject
  obtain ⟨n, rfl⟩ := Int.eq_ofNat_of_zero_le hlow
  exact_mod_cast platform.toSizeT_eq (by omega)

theorem keyEnd_eq_some {colon : Nat} (h : keyEnd entry = some colon) :
    colon = entry.findIdx (· == 58) ∧ colon < entry.length := by
  unfold keyEnd at h
  dsimp only at h
  split at h
  · rename_i hlt
    obtain rfl := Option.some.inj h
    exact ⟨rfl, hlt⟩
  · cases h

/-- The name ends inside a string that has a character. -/
theorem keyDifference_bounds (hne : entry ≠ []) :
    0 ≤ keyDifference entry ∧ keyDifference entry < entry.length := by
  have hpos := List.length_pos_of_ne_nil hne
  unfold keyDifference
  cases hend : keyEnd entry with
  | none =>
    dsimp only
    omega
  | some colon =>
    have hlt := (keyEnd_eq_some hend).2
    dsimp only
    omega

theorem keyLen_eq (hne : entry ≠ []) (hlen : entry.length < platform.maxObject) :
    (keyLen platform entry : Int) = keyDifference entry := by
  obtain ⟨hlow, hhigh⟩ := keyDifference_bounds hne
  exact toSizeT_of_nonneg hlow (by omega)

theorem keyLen_lt (hne : entry ≠ []) (hlen : entry.length < platform.maxObject) :
    keyLen platform entry < entry.length := by
  have hkey := keyLen_eq hne hlen
  have hbounds := keyDifference_bounds hne
  omega

/-- **No difference wraps around.** -/
theorem unwrapped_of_nonempty (hne : entry ≠ []) (hlen : entry.length < platform.maxObject) :
    Unwrapped platform entry where
  keyLen_eq := keyLen_eq hne hlen
  valueLen_eq := by
    have hlt := keyLen_lt hne hlen
    exact toSizeT_of_nonneg (by omega) (by omega)

/-- The empty string has no last character. -/
theorem not_unwrapped_nil : ¬ Unwrapped platform [] := by
  intro h
  have hkey : (keyLen platform [] : Int) = -1 := h.keyLen_eq
  omega

/-- The size that is compared has room for the name and for the value. -/
theorem two_mul_le_maxLen (hne : entry ≠ []) (hlen : entry.length < platform.maxObject) :
    2 * keyLen platform entry ≤ maxLen platform entry ∧
      2 * valueLen platform entry ≤ maxLen platform entry := by
  have hkey := keyLen_lt hne hlen
  have hvalue := (unwrapped_of_nonempty hne hlen).valueLen_eq
  have hmax : (maxLen platform entry : Int) =
      (2 * max (keyLen platform entry) (valueLen platform entry) : Nat) :=
    toSizeT_of_nonneg (by omega) (by omega)
  omega

end Lengths

/-! ## What the loop keeps -/

/-- The buffer is as large as the variable says at least, and each call has had room for two
bytes a character. -/
structure Scratch.Roomy (platform : Platform) (s : Scratch) : Prop where
  bufferSize_ge : platform.toSizeT tempBufferSize ≤ s.bufferSize
  fits : ∀ c ∈ s.conversions, 2 * c.len ≤ c.bufferSize

section Loop
variable {platform : Platform} {s : Scratch} {entry : List UInt8}

theorem Scratch.roomy_malloc (platform : Platform) : (Scratch.malloc platform).Roomy platform :=
  ⟨le_rfl, fun _ h => absurd h List.not_mem_nil⟩

theorem Scratch.Roomy.reserve (h : s.Roomy platform) (size : Nat) :
    (s.reserve platform size).Roomy platform where
  bufferSize_ge := tracked_le_resized h.bufferSize_ge
  fits := h.fits

theorem Scratch.Roomy.headerToString (h : s.Roomy platform) {len : Nat}
    (hroom : 2 * len ≤ s.bufferSize) : (s.headerToString len).Roomy platform where
  bufferSize_ge := h.bufferSize_ge
  fits := by
    intro c hc
    rcases List.mem_append.mp hc with hc | hc
    · exact h.fits c hc
    · rw [List.mem_singleton.mp hc]
      exact hroom

/-- **One header**: the buffer has room for the name, and then for the value. -/
theorem Scratch.Roomy.header (h : s.Roomy platform) (hne : entry ≠ [])
    (hlen : entry.length < platform.maxObject) :
    let named :=
      (s.reserve platform (maxLen platform entry)).headerToString (keyLen platform entry)
    named.Roomy platform ∧ (named.headerToString (valueLen platform entry)).Roomy platform := by
  obtain ⟨hkey, hvalue⟩ := two_mul_le_maxLen hne hlen
  have hreserved : maxLen platform entry ≤ (s.reserve platform (maxLen platform entry)).bufferSize :=
    need_le_resized h.bufferSize_ge
  have hnamed := (h.reserve (maxLen platform entry)).headerToString (hkey.trans hreserved)
  exact ⟨hnamed, hnamed.headerToString (hvalue.trans hreserved)⟩

/-- **Any number of headers**, in any order, and wherever the loop stops. -/
theorem Scratch.Roomy.scan (alloc : ArrayAlloc) (outHeaders : List (List UInt8))
    (hheld : ∀ data ∈ outHeaders, HeldEntry platform data) (h : s.Roomy platform)
    (w : HeaderWriter) : (scanRequestHeaders platform alloc outHeaders s w).1.Roomy platform := by
  -- Induction on the list; the buffer and the array are what earlier headers have left.
  induction outHeaders generalizing s w with
  | nil => exact h
  | cons data outHeaders ih =>
    have hrest : ∀ data ∈ outHeaders, HeldEntry platform data :=
      fun data hdata => hheld data (List.mem_cons_of_mem _ hdata)
    obtain ⟨hne, hlen⟩ := hheld data List.mem_cons_self
    rw [scanRequestHeaders]
    dsimp only
    by_cases hstub : isStub (cString data) = true
    · rw [if_pos hstub]
      exact ih hrest h w
    · rw [if_neg hstub]
      obtain ⟨hnamed, hvalued⟩ := h.header hne hlen
      cases w.put platform alloc ((cString data).take (keyLen platform (cString data))) with
      | error stop => exact hnamed
      | ok w =>
        dsimp only
        cases w.put platform alloc
          (((cString data).drop (keyLen platform (cString data) + 1)).take
            (valueLen platform (cString data))) with
        | error stop => exact hvalued
        | ok w => exact ih hrest hvalued w

end Loop

/-! ## The array is the same -/

/-- The name and the value as `getRequestHeaders` takes them out of a string. -/
theorem requestHeader_eq {platform : Platform} {data : List UInt8} (h : HeldEntry platform data) :
    requestHeader data = if isStub (cString data) = true then none
      else some ((cString data).take (keyLen platform (cString data)),
        ((cString data).drop (keyLen platform (cString data) + 1)).take
          (valueLen platform (cString data))) := by
  obtain ⟨hne, hlen⟩ := h
  obtain ⟨hkey, hvalue⟩ := unwrapped_of_nonempty hne hlen
  have hlt := keyLen_lt hne hlen
  unfold keyDifference at hkey
  unfold requestHeader isStub
  generalize cString data = entry at *
  dsimp only
  by_cases hcolon : entry.findIdx (· == 58) < entry.length
  · have hend : keyEnd entry = some (entry.findIdx (· == 58)) := if_pos hcolon
    rw [hend] at hkey
    have hkeyLen : keyLen platform entry = entry.findIdx (· == 58) := Int.ofNat_inj.mp hkey
    have hvalueLen : valueLen platform entry = entry.length - entry.findIdx (· == 58) - 1 := by omega
    rw [if_pos hcolon, hend, hkeyLen, hvalueLen]
    simp only [Option.any_some, beq_iff_eq]
  · have hend : keyEnd entry = none := if_neg hcolon
    rw [hend] at hkey
    dsimp only at hkey
    have hkeyLen : keyLen platform entry = entry.length - 1 := by omega
    have hvalueLen : valueLen platform entry = 0 := by omega
    rw [if_neg hcolon, hend, hkeyLen, hvalueLen, List.take_zero]
    rfl

/-- **The loop stores what it is known to store**, and stops where it is known to stop. -/
theorem scanRequestHeaders_eq (platform : Platform) (alloc : ArrayAlloc)
    (outHeaders : List (List UInt8)) (hheld : ∀ data ∈ outHeaders, HeldEntry platform data)
    (s : Scratch) (w : HeaderWriter) : (scanRequestHeaders platform alloc outHeaders s w).2 =
      writeRequestHeaders platform alloc outHeaders w := by
  induction outHeaders generalizing s w with
  | nil => rfl
  | cons data outHeaders ih =>
    have hrest : ∀ data ∈ outHeaders, HeldEntry platform data :=
      fun data hdata => hheld data (List.mem_cons_of_mem _ hdata)
    rw [scanRequestHeaders, writeRequestHeaders, requestHeader_eq (hheld data List.mem_cons_self)]
    dsimp only
    by_cases hstub : isStub (cString data) = true
    · rw [if_pos hstub, if_pos hstub]
      exact ih hrest s w
    · rw [if_neg hstub, if_neg hstub]
      dsimp only
      cases w.put platform alloc ((cString data).take (keyLen platform (cString data))) with
      | error stop => rfl
      | ok w =>
        dsimp only
        cases w.put platform alloc
          (((cString data).drop (keyLen platform (cString data) + 1)).take
            (valueLen platform (cString data))) with
        | error stop => rfl
        | ok w => exact ih hrest _ w

/-- **The scratch buffer is large enough.**  On any platform, for any list of strings with a
character each, in any order and of any lengths, any number of headers the loop may meet, and
whichever strings can be made: no length wraps around, and at each call of `headerToString` the
buffer has two bytes for each character. -/
theorem scratch_large_enough (platform : Platform) (alloc : ArrayAlloc)
    (outHeaders : List (List UInt8)) (hheld : ∀ data ∈ outHeaders, HeldEntry platform data)
    (outHeaderCount : Nat) (w : HeaderWriter) :
    (∀ data ∈ outHeaders, Unwrapped platform (cString data)) ∧
      ∀ c ∈ (scanRequestHeaders platform alloc (outHeaders.take outHeaderCount)
        (Scratch.malloc platform) w).1.conversions, 2 * c.len ≤ c.bufferSize := by
  constructor
  · intro data hdata
    obtain ⟨hne, hlen⟩ := hheld data hdata
    exact unwrapped_of_nonempty hne hlen
  · have hfirst : ∀ data ∈ outHeaders.take outHeaderCount, HeldEntry platform data :=
      fun data hdata => hheld data (List.mem_of_mem_take hdata)
    exact ((Scratch.roomy_malloc platform).scan alloc _ hfirst w).fits

/-- A stub, an empty value, and a value that no other buffer has room for. -/
def threeSizes : List (List UInt8) :=
  [[97, 58], [97, 59], 97 :: 58 :: List.replicate 3000 98, [97, 58, 98]]

theorem scratch_large_enough_threeSizes :
    (∀ data ∈ threeSizes, Unwrapped latinPlatform (cString data)) ∧
      ∀ c ∈ (scanRequestHeaders latinPlatform ⟨true, true, true, fun _ => true⟩
        (threeSizes.take 4) (Scratch.malloc latinPlatform) ⟨List.replicate 8 none, 0, [], ⟨none⟩⟩
          ).1.conversions, 2 * c.len ≤ c.bufferSize := by
  refine scratch_large_enough latinPlatform ⟨true, true, true, fun _ => true⟩ threeSizes ?_ 4 _
  intro data hdata
  simp only [threeSizes, List.mem_cons, List.not_mem_nil, or_false] at hdata
  rcases hdata with rfl | rfl | rfl | rfl
  all_goals
    refine heldEntry_cons (by decide) ?_
    rw [show latinPlatform.maxObject = 2 ^ 31 from rfl]
    simp only [List.length_cons, List.length_nil, List.length_replicate]
    omega

end CurlData
end Chttpc
