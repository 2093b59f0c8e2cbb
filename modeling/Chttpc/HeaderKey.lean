import Chttpc.Hashmap

/-!
# Header names as keys: `hashCalc` and `hashKeyCompare`

A key of the header map is a C string somewhere in memory.  `CString` keeps what
a function that is handed the pointer can see: where the string lies, its
characters, and the bytes behind its terminator, which `hashKeyCompare` reads.

`hashKeyCompare` is not the comparison its name promises.  The assignment in its
loop condition stores the result of `== 0`, so at the end `result` is `1` after
equal characters and `0` after different ones, and the function returns `true`
when it has met a difference.  The operand of the second `TOLOWER` is `*p2++`,
which the macro expands two or three times, so the character compared with the
`i`-th one of the first string is not the `i`-th one of the second.  The model
keeps both.
-/

namespace Chttpc

/-- A C string as a pointer shows it.  `addr` is `0` for strings outside the
header blocks (a buffer on the stack, a literal). -/
structure CString where
  addr : Nat
  chars : List UInt8
  /-- The bytes behind the terminator. -/
  beyond : Nat → UInt8

namespace CString

/-- Equality of pointers. -/
instance : BEq CString := ⟨fun a b => a.addr == b.addr⟩

theorem beq_eq (a b : CString) : (a == b) = (a.addr == b.addr) := rfl

/-- `s[i]`, on both sides of the terminator. -/
def byteAt (s : CString) (i : Nat) : UInt8 :=
  if h : i < s.chars.length then s.chars[i]
  else if i = s.chars.length then 0
  else s.beyond (i - s.chars.length - 1)

end CString

/-- `TOLOWER` on an operand without side effects. -/
def toLower (data : UInt8) : UInt8 :=
  if 0x40 < data ∧ data < 0x5b then data ||| 0x60 else data

/-- `TOLOWER(*p2++)` with `p2` at offset `j`: the value and the new offset.  Each
occurrence of the operand in the macro advances the pointer. -/
def toLowerNext (p2 : Nat → UInt8) (j : Nat) : UInt8 × Nat :=
  if 0x40 < p2 j then
    if p2 (j + 1) < 0x5b then (p2 (j + 2) ||| 0x60, j + 3) else (p2 (j + 2), j + 3)
  else (p2 (j + 1), j + 2)

/-- One round of the loop of `hashCalc`. -/
def hashStep (h : BitVec 32) (ch : UInt8) : BitVec 32 :=
  h * 31#32 + BitVec.ofNat 32 (toLower ch).toNat

def hashCalc (key : CString) : BitVec 32 :=
  key.chars.foldl hashStep (BitVec.ofNat 32 key.chars.length)

/-- The loop of `hashKeyCompare`, with `p1` at the given rest of the first string
and `p2` at offset `j` of the second, up to the value of `result == 0`. -/
def compareLoop (p2 : Nat → UInt8) : List UInt8 → Nat → Bool
  | [], j =>
      -- `*p1` is the terminator: on equality the loop leaves with `result = 1`.
      decide ((0 : UInt8) ≠ (toLowerNext p2 j).1)
  | c :: p1, j =>
      if toLower c = (toLowerNext p2 j).1 then compareLoop p2 p1 (toLowerNext p2 j).2 else true

def hashKeyCompare (a b : CString) : Bool :=
  if a == b then true else compareLoop b.byteAt a.chars 0

/-- Two names are equal ignoring ASCII case. -/
def equalsIgnoringCase (a b : List UInt8) : Bool := a.map toLower == b.map toLower

/-! ## Names that share a hash

The hash is a polynomial in the characters modulo `2 ^ 32`.  Seven characters
taken from a run of 31 consecutive ones are its last seven digits in base 31,
and `31 ^ 7` exceeds `2 ^ 32`, so every value is the hash of a name with any
given beginning. -/

/-- The digits of a number in base 31, most significant first. -/
theorem exists_digits : ∀ (n r : Nat), r < 31 ^ n →
    ∃ ds : List Nat, ds.length = n ∧ (∀ d ∈ ds, d < 31) ∧ ds.foldl (fun a d => a * 31 + d) 0 = r
  | 0, r, h => ⟨[], rfl, by simp, by simp at h; simp [h]⟩
  | n + 1, r, h => by
      obtain ⟨ds, hlen, hlt, hval⟩ := exists_digits n (r / 31) (by
        rw [Nat.pow_succ] at h; omega)
      refine ⟨ds ++ [r % 31], by simp [hlen], ?_, ?_⟩
      · intro d hd
        rcases List.mem_append.mp hd with hd | hd
        · exact hlt d hd
        · rw [List.mem_singleton.mp hd]; exact Nat.mod_lt _ (by decide)
      · rw [List.foldl_append, hval]
        simp only [List.foldl_cons, List.foldl_nil]
        omega

/-- The character that stands for a digit: `'['` is zero. -/
def digitChar (d : Nat) : UInt8 := UInt8.ofNat (91 + d)

theorem toNat_digitChar {d : Nat} (h : d < 31) : (digitChar d).toNat = 91 + d := by
  rw [digitChar, UInt8.toNat_ofNat']
  omega

theorem toLower_digitChar {d : Nat} (h : d < 31) : toLower (digitChar d) = digitChar d := by
  have hn := toNat_digitChar h
  unfold toLower
  split
  · rename_i hc
    have hlt : (digitChar d).toNat < 91 := UInt8.lt_iff_toNat_lt.mp hc.2
    omega
  · rfl

/-- The digits enter the hash as a number in base 31. -/
theorem foldl_hashStep_digits (ds : List Nat) (hd : ∀ d ∈ ds, d < 31) (h : BitVec 32) (a : Nat) :
    (ds.map digitChar).foldl hashStep (h + BitVec.ofNat 32 a) =
      (List.replicate ds.length (digitChar 0)).foldl hashStep h +
        BitVec.ofNat 32 (ds.foldl (fun a d => a * 31 + d) a) := by
  induction ds generalizing h a with
  | nil => simp
  | cons d ds ih =>
    have hlt : d < 31 := hd d List.mem_cons_self
    have hstep : hashStep (h + BitVec.ofNat 32 a) (digitChar d) =
        hashStep h (digitChar 0) + BitVec.ofNat 32 (a * 31 + d) := by
      rw [hashStep, hashStep, toLower_digitChar hlt, toLower_digitChar (by decide),
        toNat_digitChar hlt, toNat_digitChar (by decide)]
      rw [BitVec.add_mul]
      simp only [BitVec.ofNat_add, BitVec.ofNat_mul]
      ac_rfl
    rw [List.map_cons, List.foldl_cons, hstep,
      ih (fun x hx => hd x (List.mem_cons_of_mem _ hx))]
    rfl

/-- **Every hash is the hash of a printable name** that is as long as one wants,
starts with `-` and has a second character other than a given one. -/
theorem exists_collision (target : BitVec 32) (avoid : UInt8) (len : Nat) :
    ∃ c rest, c ≠ avoid ∧ c ≠ 0 ∧ (∀ x ∈ 45 :: c :: rest, 33 ≤ x ∧ x < 127 ∧ x ≠ 58) ∧
      len < (45 :: c :: rest).length ∧
      ∀ addr beyond, hashCalc ⟨addr, 45 :: c :: rest, beyond⟩ = target := by
  obtain ⟨c, hca, hc⟩ : ∃ c, c ≠ avoid ∧ (c = 97 ∨ c = 98) := by
    by_cases h : (97 : UInt8) = avoid
    · exact ⟨98, by rw [← h]; decide, Or.inr rfl⟩
    · exact ⟨97, h, Or.inl rfl⟩
  -- The hash in front of the last seven characters, for a name of this length.
  let front : List UInt8 := 45 :: c :: List.replicate len 97
  let h0 := front.foldl hashStep (BitVec.ofNat 32 (front.length + 7))
  let gap := target - (List.replicate 7 (digitChar 0)).foldl hashStep h0
  obtain ⟨ds, hlen, hlt, hval⟩ := exists_digits 7 gap.toNat
    (Nat.lt_of_lt_of_le gap.isLt (by decide))
  refine ⟨c, List.replicate len 97 ++ ds.map digitChar, hca, ?_, ?_, ?_, ?_⟩
  · rcases hc with rfl | rfl <;> decide
  · intro x hx
    simp only [List.mem_cons, List.mem_append, List.mem_replicate, List.mem_map] at hx
    rcases hx with rfl | rfl | ⟨-, rfl⟩ | ⟨d, hd, rfl⟩
    · decide
    · rcases hc with rfl | rfl <;> decide
    · decide
    · have hn := toNat_digitChar (hlt d hd)
      have hd31 := hlt d hd
      refine ⟨UInt8.le_iff_toNat_le.mpr ?_, UInt8.lt_iff_toNat_lt.mpr ?_, fun he => ?_⟩
      · show 33 ≤ _; omega
      · show _ < 127; omega
      · rw [he] at hn
        have h58 : (58 : UInt8).toNat = 58 := rfl
        omega
  · simp only [List.length_cons, List.length_append, List.length_replicate]; omega
  · intro addr beyond
    have hchars : 45 :: c :: (List.replicate len 97 ++ ds.map digitChar) =
        front ++ ds.map digitChar := rfl
    have hfull : (front ++ ds.map digitChar).length = front.length + 7 := by simp [hlen]
    rw [hashCalc, hchars, hfull, List.foldl_append]
    have hdigits := foldl_hashStep_digits ds hlt h0 0
    have hgap : BitVec.ofNat 32 gap.toNat = gap := by simp only [BitVec.ofNat_toNat, BitVec.setWidth_eq]
    rw [hlen, hval, hgap, BitVec.add_zero] at hdigits
    rw [hdigits]
    show _ + (target - _) = target
    rw [BitVec.add_comm, BitVec.sub_add_cancel]

/-- A name whose first character is not a letter is compared by its second
character alone, and a difference there makes the answer `true`. -/
theorem hashKeyCompare_of_second {a b : CString} {c : UInt8} {rest : List UInt8}
    (hb : b.chars = 45 :: c :: rest) (h0 : c ≠ 0)
    (hc : ∀ x ∈ a.chars.head?, c ≠ toLower x) : hashKeyCompare a b = true := by
  have hfirst : b.byteAt 0 = 45 := by simp [CString.byteAt, hb]
  have hsecond : b.byteAt 1 = c := by simp [CString.byteAt, hb]
  have hnext : toLowerNext b.byteAt 0 = (c, 2) := by
    rw [toLowerNext, hfirst, hsecond]
    rfl
  unfold hashKeyCompare
  split
  · rfl
  · cases ha : a.chars with
    | nil => simpa [compareLoop, hnext] using h0.symm
    | cons x xs =>
      have hx : toLower x ≠ c := (hc x (by simp [ha])).symm
      simp [compareLoop, hnext, hx]

end Chttpc
