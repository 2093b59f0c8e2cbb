import Chttpc.RequestProperties
import Mathlib.Data.BitVec
import Mathlib.Tactic.Ring

/-!
# The keys of `HdrMap`: `equals` and `hashKey`

The map takes two names for one key if `equals` says so, and looks for a key where `hashKey`
says.  `equals` leaves case aside with the tables of `java.lang.Character`, which know the
letters of all alphabets; `hashKey` makes `A`-`Z` into `a`-`z`, and knows no others.  Names that
match and have different hashes can both be keys of the map, and one does not find the other.

The hash is a polynomial in 31 whose coefficients are the characters, so that the hashes of two
names of one length differ by the polynomial of the differences (`horner`, `horner_sub`).  What
counts is where matching characters are not the same up to `A`-`Z`.  Over an alphabet without
such characters all names have the hashes that `equals` asks for, and over any other some have
not; `hash_compatible_iff` says both.

`BitMixer.mix` comes from a third party.  It is a parameter, of which is relied on that with one
seed it takes no two values to one; `finalMix` is such a function.
-/

namespace Chttpc

/-! ## Polynomials by Horner's rule -/

section Horner
variable {R : Type*} [CommRing R] {m : R}

/-- The polynomial with these coefficients, the highest one first, at `m`. -/
def horner (m : R) (coeffs : List R) : R := coeffs.foldl (fun h c => m * h + c) 0

/-- What a start other than zero adds. -/
theorem foldl_horner (h : R) (coeffs : List R) :
    coeffs.foldl (fun h c => m * h + c) h = m ^ coeffs.length * h + horner m coeffs := by
  induction coeffs generalizing h with
  | nil => simp [horner]
  | cons c coeffs ih =>
    rw [horner, List.foldl_cons, List.foldl_cons, ih, ih (m * 0 + c), List.length_cons]
    ring

theorem horner_cons (c : R) (coeffs : List R) :
    horner m (c :: coeffs) = m ^ coeffs.length * c + horner m coeffs := by
  rw [horner, List.foldl_cons, foldl_horner]
  ring

theorem horner_singleton (c : R) : horner m [c] = c := by
  simp [horner]

/-- **A difference of polynomials is that of the differences.** -/
theorem horner_sub {a b : List R} (h : a.length = b.length) :
    horner m a - horner m b = horner m (List.zipWith (· - ·) a b) := by
  induction a generalizing b with
  | nil =>
    obtain rfl := List.length_eq_zero_iff.mp h.symm
    simp [horner]
  | cons c a ih =>
    obtain ⟨d, b, rfl⟩ := List.exists_cons_of_length_eq_add_one h.symm
    have hlength : a.length = b.length := Nat.succ.inj h
    rw [List.zipWith_cons_cons, horner_cons, horner_cons, horner_cons, ← ih hlength,
      List.length_zipWith, hlength, Nat.min_self]
    ring

end Horner

/-! ## Mixing that loses nothing -/

section Mixing
variable {w : Nat}

def xorShift (k : Nat) (x : BitVec w) : BitVec w := x ^^^ x >>> k

theorem xorShift_xorShift (k : Nat) (x : BitVec w) :
    xorShift k (xorShift k x) = xorShift (k + k) x := by
  simp only [xorShift, BitVec.ushiftRight_xor_distrib, BitVec.shiftRight_add]
  rw [BitVec.xor_assoc, ← BitVec.xor_assoc (x >>> k), BitVec.xor_self, BitVec.zero_xor]

/-- A shift by so many bits that nothing is left of the value. -/
theorem xorShift_of_le {k : Nat} (h : w ≤ k) (x : BitVec w) : xorShift k x = x := by
  rw [xorShift, BitVec.ushiftRight_eq_zero h, BitVec.xor_zero]

/-- Done again, it is the same with twice the shift. -/
theorem xorShift_injective {k : Nat} (h : Function.Injective (xorShift (w := w) (k + k))) :
    Function.Injective (xorShift (w := w) k) := by
  intro x y hxy
  refine h ?_
  rw [← xorShift_xorShift, hxy, xorShift_xorShift]

theorem mul_injective {c d : BitVec w} (h : c * d = 1) : Function.Injective (· * c) := by
  intro x y hxy
  have hback : x * c * d = y * c * d := congrArg (· * d) hxy
  rwa [mul_assoc, mul_assoc, h, mul_one, mul_one] at hback

end Mixing

/-! ## The methods -/

namespace HdrMap

/-- `equals` of two references to strings; `same` says whether they are one reference.  `none`
if it throws, as `getClass` of a null does. -/
def equals (tables : CaseTables) (same : Bool) (v1 v2 : Option JString) : Option Bool :=
  if same then some true
  else
    match v1, v2 with
    | none, _ => some false
    | some _, none => none
    | some v1, some v2 => some (tables.equalsIgnoreCase v1 v2)

/-- A character as `hashKey` adds it. -/
def hashChar (ch : UInt16) : BitVec 32 := (lowerChar ch).toBitVec.setWidth 32

section Hash
variable (mix : BitVec 32 → BitVec 32 → BitVec 32) (keyMixer : BitVec 32)

/-- `hashKey`; `mix` is `BitMixer.mix`. -/
def hashKey (key : JString) : BitVec 32 :=
  let h := key.foldl (fun h ch => 31 * h + hashChar ch) 0
  mix h keyMixer

/-- If two strings are one key for the map, it looks for both in one place. -/
def Compatible (tables : CaseTables) (a b : JString) : Prop :=
  ∀ same : Bool, (same = true → a = b) → equals tables same (some a) (some b) = some true →
    hashKey mix keyMixer a = hashKey mix keyMixer b

end Hash

/-- What one string has more than the other at each place, with `A`-`Z` as `a`-`z`. -/
def differences (a b : JString) : List (BitVec 32) :=
  List.zipWith (fun c d => hashChar c - hashChar d) a b

/-! ## Names that match -/

section Names
variable {tables : CaseTables} {mix : BitVec 32 → BitVec 32 → BitVec 32} {keyMixer : BitVec 32}
  {a b : JString}

theorem equals_some {same : Bool} (h : same = true → a = b) :
    equals tables same (some a) (some b) = some (tables.equalsIgnoreCase a b) := by
  cases same with
  | false => rfl
  | true =>
    rw [h rfl, tables.equalsIgnoreCase_refl]
    rfl

theorem compatible_iff : Compatible mix keyMixer tables a b ↔
    (tables.equalsIgnoreCase a b = true → hashKey mix keyMixer a = hashKey mix keyMixer b) := by
  constructor
  · intro h hmatch
    have hapart : false = true → a = b := fun hsame => absurd hsame Bool.false_ne_true
    exact h false hapart (by rw [equals_some hapart, hmatch])
  · intro h same hsame hequals
    rw [equals_some hsame] at hequals
    exact h (Option.some.inj hequals)

theorem hashChar_inj {c d : UInt16} : hashChar c = hashChar d ↔ lowerChar c = lowerChar d := by
  constructor
  · intro h
    have hbits := congrArg (BitVec.setWidth 16) h
    rw [hashChar, hashChar, BitVec.setWidth_setWidth_of_le _ (by decide),
      BitVec.setWidth_setWidth_of_le _ (by decide), BitVec.setWidth_eq, BitVec.setWidth_eq] at hbits
    exact UInt16.toBitVec_inj.mp hbits
  · intro h
    rw [hashChar, h, hashChar]

theorem hashKey_eq : hashKey mix keyMixer a = mix (horner 31 (a.map hashChar)) keyMixer := by
  rw [hashKey, horner, List.foldl_map]

/-- Names that are the same up to `A`-`Z` have one hash, which is what a map relies on. -/
theorem hashKey_congr (h : lower a = lower b) :
    hashKey mix keyMixer a = hashKey mix keyMixer b := by
  have hchars (key : JString) :
      key.map hashChar = (lower key).map fun ch => ch.toBitVec.setWidth 32 := by
    rw [lower, List.map_map]
    rfl
  rw [hashKey_eq, hashKey_eq, hchars, hchars, h]

theorem length_eq_of_match (h : tables.equalsIgnoreCase a b = true) : a.length = b.length := by
  rw [tables.equalsIgnoreCase_eq, beq_iff_eq] at h
  simpa using congrArg List.length h

/-- The polynomial of the differences tells whether the hashes are one. -/
theorem hashKey_eq_iff (hmix : Function.Injective fun h => mix h keyMixer)
    (hlength : a.length = b.length) :
    hashKey mix keyMixer a = hashKey mix keyMixer b ↔ horner 31 (differences a b) = 0 := by
  have hdifferences : differences a b =
      List.zipWith (· - ·) (a.map hashChar) (b.map hashChar) := by
    rw [differences, List.zipWith_map]
  rw [hashKey_eq, hashKey_eq, hmix.eq_iff, hdifferences, ← horner_sub (by simpa using hlength),
    sub_eq_zero]

/-- **Two names.** -/
theorem compatible_iff_horner (hmix : Function.Injective fun h => mix h keyMixer) :
    Compatible mix keyMixer tables a b ↔
      (tables.equalsIgnoreCase a b = true → horner 31 (differences a b) = 0) := by
  rw [compatible_iff]
  exact forall_congr' fun hmatch => hashKey_eq_iff hmix (length_eq_of_match hmatch)

/-- Names over an alphabet whose matching characters are the same up to `A`-`Z`. -/
theorem lower_eq_of_match {S : UInt16 → Prop}
    (hS : ∀ c d, S c → S d → tables.fold c = tables.fold d → lowerChar c = lowerChar d)
    (ha : ∀ c ∈ a, S c) (hb : ∀ c ∈ b, S c) (h : a.map tables.fold = b.map tables.fold) :
    lower a = lower b := by
  induction a generalizing b with
  | nil =>
    rw [List.map_eq_nil_iff.mp h.symm]
  | cons c a ih =>
    obtain ⟨d, b, rfl, hfold, hrest⟩ := List.map_eq_cons_iff.mp h.symm
    obtain ⟨hc, ha⟩ := List.forall_mem_cons.mp ha
    obtain ⟨hd, hb⟩ := List.forall_mem_cons.mp hb
    have hchar := hS c d hc hd hfold.symm
    have hmore : lower a = lower b := ih ha hb hrest.symm
    rw [lower, lower, List.map_cons, List.map_cons, hchar]
    exact congrArg (_ :: ·) hmore

/-- **All names over an alphabet.** -/
theorem compatible_over_iff (hmix : Function.Injective fun h => mix h keyMixer)
    (S : UInt16 → Prop) :
    (∀ a b : JString, (∀ c ∈ a, S c) → (∀ c ∈ b, S c) → Compatible mix keyMixer tables a b) ↔
      ∀ c d, S c → S d → tables.fold c = tables.fold d → lowerChar c = lowerChar d := by
  constructor
  · -- two characters are two names
    intro h c d hc hd hfold
    have hmatch : tables.equalsIgnoreCase [c] [d] = true := by
      rw [tables.equalsIgnoreCase_eq, beq_iff_eq, List.map_singleton, List.map_singleton, hfold]
    have hzero := (compatible_iff_horner hmix).mp
      (h [c] [d] (by simpa using hc) (by simpa using hd)) hmatch
    rw [differences, List.zipWith_cons_cons, List.zipWith_nil_left, horner_singleton,
      sub_eq_zero] at hzero
    exact hashChar_inj.mp hzero
  · intro h a b ha hb
    refine compatible_iff.mpr fun hmatch => hashKey_congr ?_
    rw [tables.equalsIgnoreCase_eq, beq_iff_eq] at hmatch
    exact lower_eq_of_match h ha hb hmatch

/-- ASCII names are compatible, whatever else the map has. -/
theorem compatible_of_ascii (h : tables.Standard) (ha : CurlData.Ascii a) (hb : CurlData.Ascii b) :
    Compatible mix keyMixer tables a b :=
  compatible_iff.mpr fun hmatch => hashKey_congr ((h.equalsIgnoreCase_iff ha hb).mp hmatch)

/-- **The hash and the comparison.**  Two names are compatible if and only if they do not match
or the polynomial of their differences is zero; and all names over an alphabet are compatible
if and only if its characters that match are the same up to `A`-`Z`. -/
theorem hash_compatible_iff (tables : CaseTables) {mix : BitVec 32 → BitVec 32 → BitVec 32}
    {keyMixer : BitVec 32} (hmix : Function.Injective fun h => mix h keyMixer) :
    (∀ a b : JString, Compatible mix keyMixer tables a b ↔
      (tables.equalsIgnoreCase a b = true → horner 31 (differences a b) = 0)) ∧
    ∀ S : UInt16 → Prop,
      (∀ a b : JString, (∀ c ∈ a, S c) → (∀ c ∈ b, S c) → Compatible mix keyMixer tables a b) ↔
        ∀ c d, S c → S d → tables.fold c = tables.fold d → lowerChar c = lowerChar d :=
  ⟨fun _ _ => compatible_iff_horner hmix, compatible_over_iff hmix⟩

end Names

/-! ## The mixing and the tables -/

/-- `key ^ seed`, mixed by three shifts and two products with odd numbers. -/
def finalMix (key seed : BitVec 32) : BitVec 32 :=
  xorShift 16 (xorShift 13 (xorShift 16 (key ^^^ seed) * 0x85ebca6b#32) * 0xc2b2ae35#32)

theorem finalMix_injective (seed : BitVec 32) : Function.Injective fun h => finalMix h seed := by
  have hshift (k : Nat) (hk : 32 ≤ k) : Function.Injective (xorShift (w := 32) k) := by
    intro x y hxy
    rwa [xorShift_of_le hk, xorShift_of_le hk] at hxy
  have hsixteen : Function.Injective (xorShift (w := 32) 16) :=
    xorShift_injective (hshift 32 le_rfl)
  have hthirteen : Function.Injective (xorShift (w := 32) 13) :=
    xorShift_injective (xorShift_injective (hshift 52 (by decide)))
  have hfirst : Function.Injective fun x : BitVec 32 => x * 0x85ebca6b#32 :=
    mul_injective (d := 0xa5cb9243#32) (by decide)
  have hsecond : Function.Injective fun x : BitVec 32 => x * 0xc2b2ae35#32 :=
    mul_injective (d := 0x7ed1b41d#32) (by decide)
  intro x y hxy
  have hseed := hsixteen (hfirst (hthirteen (hsecond (hsixteen hxy))))
  exact (BitVec.xor_left_inj seed).mp hseed

/-- The tables of `java.lang.Character`, for the characters of one byte. -/
def latinTables : CaseTables where
  toUpperCase c :=
    if (97 ≤ c ∧ c ≤ 122) ∨ (0xe0 ≤ c ∧ c ≤ 0xfe ∧ c ≠ 0xf7) then c - 32
    else if c = 0xb5 then 0x39c
    else if c = 0xff then 0x178
    else c
  toLowerCase c :=
    if (65 ≤ c ∧ c ≤ 90) ∨ (0xc0 ≤ c ∧ c ≤ 0xde ∧ c ≠ 0xd7) then c + 32
    else if c = 0x39c then 0x3bc
    else if c = 0x178 then 0xff
    else c

theorem hash_compatible_iff_latinTables :
    (∀ a b : JString, Compatible finalMix 0 latinTables a b ↔
      (latinTables.equalsIgnoreCase a b = true → horner 31 (differences a b) = 0)) ∧
    ∀ S : UInt16 → Prop,
      (∀ a b : JString, (∀ c ∈ a, S c) → (∀ c ∈ b, S c) → Compatible finalMix 0 latinTables a b) ↔
        ∀ c d, S c → S d → latinTables.fold c = latinTables.fold d → lowerChar c = lowerChar d :=
  hash_compatible_iff latinTables (finalMix_injective 0)

/-- `É` and `é` are one key by the comparison, and have two hashes. -/
theorem not_compatible_accented : ¬ Compatible finalMix 0 latinTables [0xc9] [0xe9] := by
  intro h
  have hequals : equals latinTables false (some [0xc9]) (some [0xe9]) = some true := by decide
  exact absurd (h false (fun hsame => absurd hsame Bool.false_ne_true) hequals) (by decide)

/-! ## Names that come from a response -/

/-- The tables where the bytes of a header arrive: `É` matches `é`, and the last characters of
all have no case. -/
structure Accented (tables : CaseTables) : Prop where
  accented : tables.fold 0xc9 = tables.fold 0xe9
  uncased : ∀ c, 0xff80 ≤ c → tables.fold c = c

theorem jchar_of_lt (platform : Platform) {c : UInt8} (h : c < 128) :
    platform.jchar c = c.toUInt16 :=
  if_neg fun hsigned => absurd hsigned.2 (UInt8.not_le.mpr h)

/-- A signed byte that is not ASCII is extended with ones. -/
theorem jchar_of_signed {platform : Platform} (hsigned : platform.signedChar = true) {c : UInt8}
    (h : 128 ≤ c) : 0xff80 ≤ platform.jchar c := by
  have hlow : 128 ≤ c.toNat := h
  have hhigh : c.toNat < 2 ^ 8 := c.toNat_lt
  have hadd : 2 ^ 8 * 255 + c.toNat = 2 ^ 8 * 255 ||| c.toNat := Nat.two_pow_add_eq_or_of_lt hhigh 255
  rw [Platform.jchar, if_pos ⟨hsigned, h⟩, UInt16.le_iff_toNat_le, UInt16.toNat_or,
    UInt8.toNat_toUInt16, Nat.or_comm]
  show 0xff80 ≤ 2 ^ 8 * 255 ||| c.toNat
  omega

theorem standard_latinTables : latinTables.Standard where
  upper_eq := by
    intro c hc
    simp only [latinTables]
    grind
  lower_eq := by
    intro c hc
    simp only [latinTables, lowerChar]
    grind

theorem accented_latinTables : Accented latinTables where
  accented := by decide
  uncased := by
    intro c hc
    simp only [CaseTables.fold, latinTables]
    grind

section Response
variable {tables : CaseTables} {mix : BitVec 32 → BitVec 32 → BitVec 32} {keyMixer : BitVec 32}
  {platform : Platform}

/-- What a byte becomes where `char` is signed: an ASCII character, or one of the last. -/
def SignExtended (c : UInt16) : Prop := c < 128 ∨ 0xff80 ≤ c

theorem signExtended_jchar (hsigned : platform.signedChar = true) (c : UInt8) :
    SignExtended (platform.jchar c) := by
  by_cases hascii : c < 128
  · rw [jchar_of_lt platform hascii]
    refine .inl ?_
    rw [UInt16.lt_iff_toNat_lt, UInt8.toNat_toUInt16]
    exact hascii
  · exact .inr (jchar_of_signed hsigned (UInt8.not_lt.mp hascii))

/-- Such characters match if they are the same up to `A`-`Z`, and in no other case. -/
theorem Accented.lowerChar_eq (haccented : Accented tables) (hstandard : tables.Standard)
    {c d : UInt16} (hc : SignExtended c) (hd : SignExtended d)
    (hfold : tables.fold c = tables.fold d) : lowerChar c = lowerChar d := by
  rcases hc with hc | hc
  · rw [hstandard.fold_eq hc] at hfold
    rcases hd with hd | hd
    · rwa [hstandard.fold_eq hd] at hfold
    · rw [haccented.uncased d hd] at hfold
      unfold lowerChar at hfold
      grind
  · rw [haccented.uncased c hc] at hfold
    rcases hd with hd | hd
    · rw [hstandard.fold_eq hd] at hfold
      unfold lowerChar at hfold
      grind
    · rw [hfold, haccented.uncased d hd]

/-- Where `char` is not signed, `É` and `é` arrive as they are. -/
theorem Accented.not_compatible (haccented : Accented tables)
    (hmix : Function.Injective fun h => mix h keyMixer) (hunsigned : ¬ platform.signedChar = true) :
    ¬ Compatible mix keyMixer tables ([0xc9].map platform.jchar) ([0xe9].map platform.jchar) := by
  have hplain (c : UInt8) : platform.jchar c = c.toUInt16 :=
    if_neg fun hsigned => hunsigned hsigned.1
  have hmatch : tables.equalsIgnoreCase [0xc9] [0xe9] = true := by
    rw [tables.equalsIgnoreCase_eq, beq_iff_eq, List.map_singleton, List.map_singleton,
      haccented.accented]
  rw [List.map_singleton, List.map_singleton, hplain, hplain, compatible_iff_horner hmix]
  exact fun h => absurd (h hmatch) (by decide)

/-- **Names of a response** are compatible, whatever bytes the server sends, if and only if
`char` is signed. -/
theorem response_names_compatible_iff (hstandard : tables.Standard) (haccented : Accented tables)
    (hmix : Function.Injective fun h => mix h keyMixer) (platform : Platform) :
    (∀ text text' a b, platform.headerToString true text = some a →
      platform.headerToString true text' = some b → Compatible mix keyMixer tables a b) ↔
      platform.signedChar = true := by
  constructor
  · intro h
    by_contra hunsigned
    exact haccented.not_compatible hmix hunsigned (h [0xc9] [0xe9] _ _ rfl rfl)
  · intro hsigned text text' a b ha hb
    obtain rfl := Option.some.inj ha
    obtain rfl := Option.some.inj hb
    have hextended (text : List UInt8) : ∀ c ∈ text.map platform.jchar, SignExtended c := by
      intro c hc
      obtain ⟨byte, -, rfl⟩ := List.mem_map.mp hc
      exact signExtended_jchar hsigned byte
    exact (compatible_over_iff hmix SignExtended).mpr
      (fun c d hc hd hfold => haccented.lowerChar_eq hstandard hc hd hfold) _ _
      (hextended text) (hextended text')

end Response
end HdrMap
end Chttpc
