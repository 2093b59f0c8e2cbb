import Chttpc.NumberChars

/-!
# `IntParser` without overflow

`getNumberChars` computes in 64 bits, then in 32, and then with a product that has 32 bits
only if it is not taken for an `int`.  That it writes the numeral does not say that nothing
has wrapped around on the way: what one operation loses, another may make up for.

`exactNumberChars` is the same method over the integers.  Each operation that has a result its
type does not hold ends it, and so does a position outside the array, an index of a table
above 99, and a quotient of the last loop that is not a tenth.  Where it comes to an end with an
array, no value on the way has been corrupted.

The first two loops are one here, for any number of bits; `TakesTwo` says what the loops of
the code have in common, and the proof goes through it.
-/

namespace Chttpc

theorem toOption_bind {ε α β : Type} (x : Except ε α) (f : α → Except ε β) :
    (x >>= f).toOption = x.toOption >>= fun a => (f a).toOption := by
  cases x with
  | error _ => rfl
  | ok _ => rfl

namespace IntParser

/-! ## The method over the integers -/

/-- A value of a signed type, if the type holds it. -/
def held (bits : Nat) (n : Int) : Option Int :=
  if -2 ^ (bits - 1) ≤ n ∧ n < 2 ^ (bits - 1) then some n else none

/-- `n - ((q << 6) + (q << 5) + (q << 2))`. -/
def exactHundred (bits : Nat) (n q : Int) : Option Int := do
  let a ← held bits (q * 2 ^ 6)
  let b ← held bits (q * 2 ^ 5)
  let sum ← held bits (a + b)
  let c ← held bits (q * 2 ^ 2)
  let product ← held bits (sum + c)
  held bits (n - product)

/-- `i2 - ((q2 << 3) + (q2 << 1))`. -/
def exactTen (i2 q2 : Int) : Option Int := do
  let a ← held 32 (q2 * 2 ^ 3)
  let b ← held 32 (q2 * 2 ^ 1)
  let product ← held 32 (a + b)
  held 32 (i2 - product)

/-- `buf[--charPos] = ch`. -/
def exactPut (ch : UInt16) (charPos : Int) (buf : JString) : Option (Int × JString) := do
  let charPos ← held 32 (charPos - 1)
  let buf ← store buf charPos ch
  pure (charPos, buf)

/-- `buf[--charPos] = table[r]`, for two digits at most. -/
def exactDigit (table : JString) (r charPos : Int) (buf : JString) : Option (Int × JString) :=
  if 0 ≤ r ∧ r ≤ 99 then do
    let ch ← table[r.toNat]?
    exactPut ch charPos buf
  else none

/-- The loop that takes two digits off a number above the limit. -/
def exactTwoLoop (bits limit : Nat) (number charPos : Int) (buf : JString) :
    Option (Int × Int × JString) :=
  if limit < number then do
    let q := number.tdiv 100
    let r ← exactHundred bits number q
    let r ← held 32 r
    let (charPos, buf) ← exactDigit DigitOnes r charPos buf
    let (charPos, buf) ← exactDigit DigitTens r charPos buf
    exactTwoLoop bits limit q charPos buf
  else some (number, charPos, buf)
termination_by number.toNat
decreasing_by
  have hdiv : number.tdiv 100 = number / 100 := Int.tdiv_eq_ediv_of_nonneg (by omega)
  omega

def exactLongLoop := exactTwoLoop 64 (2 ^ 31 - 1)

def exactIntLoop := exactTwoLoop 32 65535

/-- The loop that takes one digit off: the product has the 32 bits that the shift takes, and
the quotient is a tenth. -/
def exactDigitLoop (i2 charPos : Int) (buf : JString) : Option (Int × JString) :=
  let product := i2 * 52429
  let q2 := product / 2 ^ 19
  if 0 ≤ product ∧ product < 2 ^ 32 ∧ q2 = i2 / 10 then do
    let r ← exactTen i2 q2
    let (charPos, buf) ← exactDigit digits r charPos buf
    if q2 = 0 then pure (charPos, buf) else exactDigitLoop q2 charPos buf
  else none
termination_by i2.toNat
decreasing_by omega

/-- `getNumberChars`, if nothing wraps around and no index is out of bounds. -/
def exactNumberChars (number index : Int) (buf : JString) : Option JString := do
  let sign : Bool := number < 0
  let number ← held 64 (if sign then -number else number)
  let (number, charPos, buf) ← exactLongLoop number index buf
  let i2 ← held 32 number
  let (i2, charPos, buf) ← exactIntLoop i2 charPos buf
  let (charPos, buf) ← exactDigitLoop i2 charPos buf
  if sign then
    let (_, buf) ← exactPut 45 charPos buf
    pure buf
  else pure buf

/-! ## The operations -/

section Operations
variable {bits : Nat} {charPos : Int} {buf : JString}

theorem held_of_bounds {n : Int} (hlow : -2 ^ (bits - 1) ≤ n) (hhigh : n < 2 ^ (bits - 1)) :
    held bits n = some n := if_pos ⟨hlow, hhigh⟩

/-- A part of a number that the type holds. -/
theorem held_of_nonneg {m n : Int} (hn : n < 2 ^ (bits - 1)) (hlow : 0 ≤ m) (hle : m ≤ n) :
    held bits m = some m := by
  have hpow : (0 : Int) < 2 ^ (bits - 1) := Int.pow_pos (by decide)
  exact held_of_bounds (by omega) (by omega)

theorem held_eq_some {m n : Int} (h : held bits n = some m) : m = n ∧ n < 2 ^ (bits - 1) := by
  unfold held at h
  split at h
  · rename_i hbounds
    exact ⟨(Option.some.inj h).symm, hbounds.2⟩
  · cases h

/-- All that is added up is a part of the number. -/
theorem exactHundred_eq {n : Nat} (hn : n < 2 ^ (bits - 1)) :
    exactHundred bits n ((n / 100 : Nat) : Int) = some ((n % 100 : Nat) : Int) := by
  have hheld (m : Int) : 0 ≤ m → m ≤ n → held bits m = some m :=
    held_of_nonneg (by exact_mod_cast hn)
  have hremainder : (n : Int) - (((n / 100 : Nat) : Int) * 2 ^ 6 + ((n / 100 : Nat) : Int) * 2 ^ 5 +
      ((n / 100 : Nat) : Int) * 2 ^ 2) = ((n % 100 : Nat) : Int) := by omega
  simp only [exactHundred, Option.bind_eq_bind]
  rw [hheld _ (by omega) (by omega), Option.bind_some, hheld _ (by omega) (by omega),
    Option.bind_some, hheld _ (by omega) (by omega), Option.bind_some,
    hheld _ (by omega) (by omega), Option.bind_some, hheld _ (by omega) (by omega),
    Option.bind_some, hremainder, hheld _ (by omega) (by omega)]

theorem exactTen_eq {n : Nat} (hn : n < 2 ^ 31) :
    exactTen n ((n / 10 : Nat) : Int) = some ((n % 10 : Nat) : Int) := by
  have hheld (m : Int) : 0 ≤ m → m ≤ n → held 32 m = some m := held_of_nonneg (by omega)
  have hremainder : (n : Int) - (((n / 10 : Nat) : Int) * 2 ^ 3 + ((n / 10 : Nat) : Int) * 2 ^ 1) =
      ((n % 10 : Nat) : Int) := by omega
  simp only [exactTen, Option.bind_eq_bind]
  rw [hheld _ (by omega) (by omega), Option.bind_some, hheld _ (by omega) (by omega),
    Option.bind_some, hheld _ (by omega) (by omega), Option.bind_some, hremainder,
    hheld _ (by omega) (by omega)]

/-- A position in an array. -/
def InArray (charPos : Int) : Prop := 0 ≤ charPos ∧ charPos < 2 ^ 31

theorem exactPut_eq (hpos : InArray charPos) (ch : UInt16) :
    exactPut ch charPos buf = (putBefore ch charPos buf).toOption := by
  obtain ⟨hlow, hhigh⟩ := hpos
  have hheld : held 32 (charPos - 1) = some (charPos - 1) := held_of_bounds (by omega) (by omega)
  simp only [exactPut, Option.bind_eq_bind]
  rw [hheld, Option.bind_some, putBefore, toInt32_of_bounds (by omega) (by omega)]
  cases store buf (charPos - 1) ch with
  | none => rfl
  | some stored => rfl

theorem exactPut_inArray {ch : UInt16} {charPos' : Int} {buf' : JString} (hpos : InArray charPos)
    (h : exactPut ch charPos buf = some (charPos', buf')) : InArray charPos' := by
  obtain ⟨p, hheld, h⟩ := Option.bind_eq_some_iff.mp h
  obtain ⟨stored, hstore, h⟩ := Option.bind_eq_some_iff.mp h
  obtain ⟨rfl, rfl⟩ := Prod.mk.inj (Option.some.inj h)
  obtain ⟨rfl, -⟩ := held_eq_some hheld
  have hlow : 0 ≤ charPos - 1 := by
    unfold store at hstore
    split at hstore
    · rename_i hbounds
      exact hbounds.1
    · cases hstore
  exact ⟨hlow, by have hhigh := hpos.2; omega⟩

theorem exactDigit_eq (hpos : InArray charPos) (table : JString) {r : Nat} (hr : r < 100) :
    exactDigit table r charPos buf = (putDigit table r charPos buf).toOption := by
  rw [exactDigit, if_pos (by omega), putDigit, charAt, if_pos (Int.natCast_nonneg r),
    Int.toNat_natCast]
  cases table[r]? with
  | none => rfl
  | some ch => exact exactPut_eq hpos ch

theorem exactDigit_inArray {table : JString} {r charPos' : Int} {buf' : JString}
    (hpos : InArray charPos) (h : exactDigit table r charPos buf = some (charPos', buf')) :
    InArray charPos' := by
  unfold exactDigit at h
  split at h
  · obtain ⟨ch, -, h⟩ := Option.bind_eq_some_iff.mp h
    exact exactPut_inArray hpos h
  · cases h

end Operations

/-! ## The loops -/

section Loops
variable {bits limit : Nat} {charPos : Int} {buf : JString}

/-- One round of a loop that takes two digits off. -/
theorem exactTwoLoop_round {n : Nat} (hlimit : limit < n) (hn : n < 2 ^ (bits - 1)) :
    exactTwoLoop bits limit n charPos buf = (do
      let (charPos, buf) ← exactDigit DigitOnes ((n % 100 : Nat) : Int) charPos buf
      let (charPos, buf) ← exactDigit DigitTens ((n % 100 : Nat) : Int) charPos buf
      exactTwoLoop bits limit ((n / 100 : Nat) : Int) charPos buf) := by
  have hheld : held 32 ((n % 100 : Nat) : Int) = some ((n % 100 : Nat) : Int) :=
    held_of_bounds (by omega) (by omega)
  rw [exactTwoLoop, if_pos (by exact_mod_cast hlimit), tdiv_hundred]
  simp only [Option.bind_eq_bind]
  rw [exactHundred_eq hn, Option.bind_some, hheld, Option.bind_some]

/-- **The loops that take two digits** do what they do over the integers. -/
theorem exactTwoLoop_eq
    {loop : Int → Int → JString → Except JString (Int × Int × JString)}
    (htwo : TakesTwo loop (limit + 1) (2 ^ (bits - 1))) {n : Nat} (hn : n < 2 ^ (bits - 1))
    (hpos : InArray charPos) :
    exactTwoLoop bits limit n charPos buf = (loop n charPos buf).toOption := by
  -- Induction on the number, which a round divides by a hundred.
  induction n using Nat.strong_induction_on generalizing charPos buf with
  | _ n ih =>
    by_cases hlimit : limit < n
    · have hhundred := htwo.limit_le
      have hr : n % 100 < 100 := Nat.mod_lt n (by decide)
      rw [exactTwoLoop_round hlimit hn, htwo.round n hlimit hn, toOption_bind,
        ← exactDigit_eq hpos DigitOnes hr]
      refine Option.bind_congr ?_
      rintro ⟨charPos₁, buf₁⟩ hones
      have hpos₁ := exactDigit_inArray hpos hones
      dsimp only
      rw [toOption_bind, ← exactDigit_eq hpos₁ DigitTens hr]
      refine Option.bind_congr ?_
      rintro ⟨charPos₂, buf₂⟩ htens
      exact ih (n / 100) (by omega) (by omega) (exactDigit_inArray hpos₁ htens)
    · rw [htwo.leave n (by omega), exactTwoLoop, if_neg (by omega)]
      rfl

/-- What they leave. -/
theorem exactTwoLoop_bounds {n : Nat} {m charPos' : Int} {buf' : JString}
    (hn : n < 2 ^ (bits - 1)) (hpos : InArray charPos)
    (h : exactTwoLoop bits limit n charPos buf = some (m, charPos', buf')) :
    0 ≤ m ∧ m ≤ limit ∧ InArray charPos' := by
  induction n using Nat.strong_induction_on generalizing charPos buf with
  | _ n ih =>
    by_cases hlimit : limit < n
    · rw [exactTwoLoop_round hlimit hn] at h
      obtain ⟨⟨charPos₁, buf₁⟩, hones, h⟩ := Option.bind_eq_some_iff.mp h
      obtain ⟨⟨charPos₂, buf₂⟩, htens, h⟩ := Option.bind_eq_some_iff.mp h
      exact ih (n / 100) (by omega) (by omega)
        (exactDigit_inArray (exactDigit_inArray hpos hones) htens) h
    · rw [exactTwoLoop, if_neg (by omega)] at h
      obtain ⟨rfl, hrest⟩ := Prod.mk.inj (Option.some.inj h)
      obtain ⟨rfl, rfl⟩ := Prod.mk.inj hrest
      exact ⟨by omega, by omega, hpos⟩

theorem exactLongLoop_eq {n : Nat} (hn : n < 2 ^ 63) (hpos : InArray charPos) :
    exactLongLoop n charPos buf = (longLoop n charPos buf).toOption :=
  exactTwoLoop_eq takesTwo_longLoop hn hpos

theorem exactIntLoop_eq {n : Nat} (hn : n < 2 ^ 31) (hpos : InArray charPos) :
    exactIntLoop n charPos buf = (intLoop n charPos buf).toOption :=
  exactTwoLoop_eq takesTwo_intLoop hn hpos

/-- **The last loop**: the product keeps within 32 bits, and the quotient is a tenth. -/
theorem exactDigitLoop_round {n : Nat} (hn : n < 65536) :
    exactDigitLoop n charPos buf = (do
      let (charPos, buf) ← exactDigit digits ((n % 10 : Nat) : Int) charPos buf
      if ((n / 10 : Nat) : Int) = 0 then pure (charPos, buf)
      else exactDigitLoop ((n / 10 : Nat) : Int) charPos buf) := by
  have hq : (n : Int) * 52429 / 2 ^ 19 = ((n / 10 : Nat) : Int) := by omega
  rw [exactDigitLoop]
  simp only [hq, Option.bind_eq_bind]
  rw [if_pos ⟨by omega, by omega, by omega⟩, exactTen_eq (by omega), Option.bind_some]

theorem exactDigitLoop_eq {n : Nat} (hn : n < 65536) (hpos : InArray charPos) :
    exactDigitLoop n charPos buf = (digitLoop n charPos buf).toOption := by
  induction n using Nat.strong_induction_on generalizing charPos buf with
  | _ n ih =>
    have hq : unsignedShift (toInt32 ((n : Int) * 52429)) 19 = ((n / 10 : Nat) : Int) :=
      unsignedShift_eq (Int.natCast_nonneg n) (by omega)
    rw [exactDigitLoop_round hn, IntParser.digitLoop]
    simp only [hq, digit_remainder hn]
    rw [toOption_bind, ← exactDigit_eq hpos digits (by omega)]
    refine Option.bind_congr ?_
    rintro ⟨charPos₁, buf₁⟩ hdigit
    dsimp only
    by_cases hlast : ((n / 10 : Nat) : Int) = 0
    · rw [if_pos hlast, if_pos hlast]
      rfl
    · rw [if_neg hlast, if_neg hlast]
      exact ih (n / 10) (by omega) (by omega) (exactDigit_inArray hpos hdigit)

theorem exactDigitLoop_inArray {n : Nat} {charPos' : Int} {buf' : JString} (hn : n < 65536)
    (hpos : InArray charPos) (h : exactDigitLoop n charPos buf = some (charPos', buf')) :
    InArray charPos' := by
  induction n using Nat.strong_induction_on generalizing charPos buf with
  | _ n ih =>
    rw [exactDigitLoop_round hn] at h
    obtain ⟨⟨charPos₁, buf₁⟩, hdigit, h⟩ := Option.bind_eq_some_iff.mp h
    have hpos₁ := exactDigit_inArray hpos hdigit
    dsimp only at h
    by_cases hlast : ((n / 10 : Nat) : Int) = 0
    · rw [if_pos hlast] at h
      obtain ⟨rfl, rfl⟩ := Prod.mk.inj (Option.some.inj h)
      exact hpos₁
    · rw [if_neg hlast] at h
      exact ih (n / 10) (by omega) (by omega) hpos₁ h

/-- **Nothing wraps around**: the method and the one over the integers are the same, and
throw alike where there is no room. -/
theorem exactNumberChars_eq {number index : Int} (hlow : -2 ^ 63 < number)
    (hhigh : number < 2 ^ 63) (hindex : InArray index) :
    exactNumberChars number index buf = (getNumberChars number index buf).toOption := by
  have hnegated : (if decide (number < 0) = true then -number else number) = number.natAbs := by
    by_cases hneg : number < 0
    · rw [if_pos (by simpa using hneg)]
      omega
    · rw [if_neg (by simpa using hneg)]
      omega
  have hnatAbs : number.natAbs < 2 ^ 63 := by omega
  simp only [exactNumberChars, Option.bind_eq_bind]
  rw [hnegated, held_of_bounds (by omega) (by omega), Option.bind_some, getNumberChars, negated_eq hlow hhigh, toOption_bind,
    ← exactLongLoop_eq hnatAbs hindex]
  refine Option.bind_congr ?_
  rintro ⟨m₁, charPos₁, buf₁⟩ hlong
  obtain ⟨hm₁, hle₁, hpos₁⟩ := exactTwoLoop_bounds hnatAbs hindex hlong
  obtain ⟨m₁, rfl⟩ := Int.eq_ofNat_of_zero_le hm₁
  have hlt₁ : m₁ < 2 ^ 31 := by omega
  dsimp only
  rw [held_of_bounds (by omega) (by omega), Option.bind_some, toInt32_of_nat hlt₁, toOption_bind,
    ← exactIntLoop_eq hlt₁ hpos₁]
  refine Option.bind_congr ?_
  rintro ⟨m₂, charPos₂, buf₂⟩ hint
  obtain ⟨hm₂, hle₂, hpos₂⟩ := exactTwoLoop_bounds hlt₁ hpos₁ hint
  obtain ⟨m₂, rfl⟩ := Int.eq_ofNat_of_zero_le hm₂
  have hlt₂ : m₂ < 65536 := by omega
  dsimp only
  rw [toOption_bind, ← exactDigitLoop_eq hlt₂ hpos₂]
  refine Option.bind_congr ?_
  rintro ⟨charPos₃, buf₃⟩ hlast
  have hpos₃ := exactDigitLoop_inArray hlt₂ hpos₂ hlast
  dsimp only
  by_cases hneg : number < 0
  · rw [if_pos (by simpa using hneg), if_pos (by simpa using hneg), toOption_bind,
      ← exactPut_eq hpos₃]
    rfl
  · rw [if_neg (by simpa using hneg), if_neg (by simpa using hneg)]
    rfl

/-- The least `long` has no negative. -/
theorem exactNumberChars_least (index : Int) : exactNumberChars (-2 ^ 63) index buf = none := by
  have hheld : held 64 (if decide ((-2 ^ 63 : Int) < 0) = true then - -2 ^ 63 else -2 ^ 63) = none := by
    decide
  simp only [exactNumberChars, Option.bind_eq_bind]
  rw [hheld, Option.bind_none]

end Loops

/-! ## Digit generation -/

/-- The array has the numeral up to the index, and is what it was elsewhere. -/
structure WritesNumeral (number : Int) (index : Nat) (buf buf' : JString) : Prop where
  room : (decimal number).length ≤ index
  length_eq : buf'.length = buf.length
  numeral : (buf'.take index).drop (index - (decimal number).length) = decimal number
  before : buf'.take (index - (decimal number).length) =
    buf.take (index - (decimal number).length)
  after : buf'.drop index = buf.drop index

theorem writesNumeral_replaceFrom {number : Int} {index : Nat} {buf : JString}
    (hroom : (decimal number).length ≤ index) (hindex : index ≤ buf.length) :
    WritesNumeral number index buf
      (replaceFrom buf ((index : Int) - (decimal number).length) (decimal number)) := by
  obtain ⟨start, rfl⟩ := Nat.exists_eq_add_of_le' hroom
  have hstart : ((start + (decimal number).length : Nat) : Int) - (decimal number).length =
      (start : Nat) := by omega
  have htake : (buf.take start).length = start := List.length_take_of_le (by omega)
  rw [hstart, replaceFrom, Int.toNat_natCast]
  refine ⟨hroom, ?_, ?_, ?_, ?_⟩
  · rw [List.length_append, List.length_append, htake, List.length_drop]
    omega
  · rw [Nat.add_sub_cancel, List.take_left' (by rw [List.length_append, htake]),
      List.drop_left' htake]
  · rw [Nat.add_sub_cancel, List.append_assoc, List.take_left' htake]
  · rw [List.drop_left' (by rw [List.length_append, htake])]

/-- The room that is asked for is that of the numeral. -/
theorem length_decimal {number : Int} (hlow : -2 ^ 63 < number) (hhigh : number < 2 ^ 63) :
    ((decimal number).length : Int) =
      stringSize number.natAbs + (if number < 0 then 1 else 0) := by
  rw [stringSize_eq (by omega), decimal, List.length_append]
  by_cases hneg : number < 0
  · rw [if_pos hneg, if_pos hneg, List.length_singleton]
    omega
  · rw [if_neg hneg, if_neg hneg, List.length_nil]
    omega

/-- **Digit generation.**  For every number but the least `long`, any array, and any index that
has room before it, the numeral is written before the index and nothing else; the method over
the integers writes the same, so no value on the way is corrupted, and the shifted product is
a tenth of every number the last loop may see. -/
theorem digit_generation {number : Int} (hlow : -2 ^ 63 < number) (hhigh : number < 2 ^ 63)
    {index : Nat} {buf : JString}
    (hroom : stringSize number.natAbs + (if number < 0 then 1 else 0) ≤ index)
    (hindex : index ≤ buf.length) (hsize : buf.length < 2 ^ 31) :
    (∃ buf', getNumberChars number index buf = .ok buf' ∧
      exactNumberChars number index buf = some buf' ∧ WritesNumeral number index buf buf') ∧
    ∀ i2 : Int, 0 ≤ i2 → i2 < 65536 → unsignedShift (toInt32 (i2 * 52429)) 19 = i2 / 10 := by
  refine ⟨?_, fun i2 hlow hhigh => unsignedShift_eq hlow hhigh⟩
  have hdecimal := length_decimal hlow hhigh
  have hfits : (decimal number).length ≤ index := by omega
  have hwritten := getNumberChars_spec hlow hhigh hfits hindex hsize
  have hinArray : InArray index := ⟨Int.natCast_nonneg index, by omega⟩
  refine ⟨_, hwritten, ?_, writesNumeral_replaceFrom hfits hindex⟩
  rw [exactNumberChars_eq hlow hhigh hinArray, hwritten]
  rfl

/-- A number that all three loops see. -/
theorem digit_generation_long :
    (∃ buf', getNumberChars (-98765432109876) 16 (List.replicate 20 0) = .ok buf' ∧
      exactNumberChars (-98765432109876) 16 (List.replicate 20 0) = some buf' ∧
        WritesNumeral (-98765432109876) 16 (List.replicate 20 0) buf') ∧
    ∀ i2 : Int, 0 ≤ i2 → i2 < 65536 → unsignedShift (toInt32 (i2 * 52429)) 19 = i2 / 10 :=
  @digit_generation (-98765432109876) (by decide) (by decide) 16 (List.replicate 20 0) (by decide)
    (by decide) (by decide)

end IntParser
end Chttpc
