import Chttpc.UrlText
import Chttpc.Timeouts

/-!
# Writing a number: `stringSize` and `IntParser`

A `long` is written into an array from its end.  Two digits at a time are taken off while the
number does not fit an `int`, then two at a time while it has more than sixteen bits, and then
one at a time, by a multiplication and a shift instead of a division.  `stringSize` counts the
digits before that, by comparing with the powers of ten.

All arithmetic is that of Java: a sum of shifts stands for a product with 100 or 10, and each
operation wraps around.  An array that is indexed out of bounds throws, and what has been
written until then stays.

`Writing` is the invariant of the three loops: the characters written so far stand from
`charPos` on, and the rest of the array is what it was.  A loop takes digits off the number
and puts them before these characters; `decimalDigits` of what is left, and the characters,
make the same text throughout.  The first two loops differ in their arithmetic alone, and what
they have in common is `TakesTwo`.
-/

namespace Chttpc

/-- Conversion to `long`. -/
def toInt64 (n : Int) : Int := n.bmod (2 ^ 64)

theorem toInt64_of_bounds {n : Int} (hlow : -2 ^ 63 ≤ n) (hhigh : n < 2 ^ 63) : toInt64 n = n := by
  unfold toInt64
  rw [Int.bmod_def]
  omega

theorem toInt32_emod (n : Int) : toInt32 n % 2 ^ 32 = n % 2 ^ 32 := by
  unfold toInt32
  rw [Int.bmod_def]
  split <;> omega

/-- `>>>` on an `int`. -/
def unsignedShift (n : Int) (k : Nat) : Int := n % 2 ^ 32 / 2 ^ k

theorem ok_bind {ε α β : Type} (a : α) (f : α → Except ε β) : (Except.ok a >>= f) = f a := rfl

/-- The loop of `stringSize`, with `remaining` rounds to go. -/
def stringSizeFrom (x : Int) : Nat → Int → Int → Int
  | 0, _, _ => 19
  | remaining + 1, i, p =>
      if x < p then i else stringSizeFrom x remaining (i + 1) (toInt64 (10 * p))

def stringSize (x : Int) : Int := stringSizeFrom x 18 1 10

namespace IntParser

/-- The characters of an ASCII text. -/
def chars (text : String) : JString := (ascii text).map (·.toUInt16)

def DigitTens : JString := (chars "0123456789").flatMap (List.replicate 10)

def DigitOnes : JString := (List.replicate 10 (chars "0123456789")).flatten

def digits : JString := chars "0123456789abcdefghijklmnopqrstuvwxyz"

/-- `buf[--charPos] = ch`. -/
def putBefore (ch : UInt16) (charPos : Int) (buf : JString) : Except JString (Int × JString) :=
  match store buf (toInt32 (charPos - 1)) ch with
  | none => .error buf
  | some stored => .ok (toInt32 (charPos - 1), stored)

/-- `buf[--charPos] = table[r]`. -/
def putDigit (table : JString) (r charPos : Int) (buf : JString) : Except JString (Int × JString) :=
  match charAt table r with
  | none => .error buf
  | some ch => putBefore ch charPos buf

/-- The loop that takes two digits off a `long`. -/
def longLoop (number charPos : Int) (buf : JString) : Except JString (Int × Int × JString) :=
  if 2 ^ 31 - 1 < number then
    -- 100 is 2 ^ 6 + 2 ^ 5 + 2 ^ 2
    let q := number.tdiv 100
    let r := toInt32 (toInt64 (number -
      toInt64 (toInt64 (toInt64 (q * 2 ^ 6) + toInt64 (q * 2 ^ 5)) + toInt64 (q * 2 ^ 2))))
    do
      let (charPos, buf) ← putDigit DigitOnes r charPos buf
      let (charPos, buf) ← putDigit DigitTens r charPos buf
      longLoop q charPos buf
  else .ok (number, charPos, buf)
termination_by number.toNat
decreasing_by
  have hdiv : number.tdiv 100 = number / 100 := Int.tdiv_eq_ediv_of_nonneg (by omega)
  omega

/-- The loop that takes two digits off an `int`. -/
def intLoop (i2 charPos : Int) (buf : JString) : Except JString (Int × Int × JString) :=
  if 65536 ≤ i2 then
    let q2 := i2.tdiv 100
    let r := toInt32 (i2 -
      toInt32 (toInt32 (toInt32 (q2 * 2 ^ 6) + toInt32 (q2 * 2 ^ 5)) + toInt32 (q2 * 2 ^ 2)))
    do
      let (charPos, buf) ← putDigit DigitOnes r charPos buf
      let (charPos, buf) ← putDigit DigitTens r charPos buf
      intLoop q2 charPos buf
  else .ok (i2, charPos, buf)
termination_by i2.toNat
decreasing_by
  have hdiv : i2.tdiv 100 = i2 / 100 := Int.tdiv_eq_ediv_of_nonneg (by omega)
  omega

/-- A shift by 19 leaves thirteen bits. -/
theorem unsignedShift_lt (n : Int) : 0 ≤ unsignedShift n 19 ∧ unsignedShift n 19 < 8192 := by
  unfold unsignedShift
  omega

/-- The product with 52429 is a tenth of 2 to the 19, and a little more; what it loses as an
`int` the shift takes for a high bit. -/
theorem unsignedShift_eq {n : Int} (hlow : 0 ≤ n) (hhigh : n < 65536) :
    unsignedShift (toInt32 (n * 52429)) 19 = n / 10 := by
  have hproduct : n * 52429 % 2 ^ 32 = n * 52429 := Int.emod_eq_of_lt (by omega) (by omega)
  rw [unsignedShift, toInt32_emod, hproduct]
  omega

/-- The loop that takes one digit off, until nothing is left. -/
def digitLoop (i2 charPos : Int) (buf : JString) : Except JString (Int × JString) :=
  -- a tenth, and 10 is 2 ^ 3 + 2 ^ 1
  let q2 := unsignedShift (toInt32 (i2 * 52429)) 19
  let r := toInt32 (i2 - toInt32 (toInt32 (q2 * 2 ^ 3) + toInt32 (q2 * 2 ^ 1)))
  do
    let (charPos, buf) ← putDigit digits r charPos buf
    if q2 = 0 then pure (charPos, buf) else digitLoop q2 charPos buf
termination_by if 0 ≤ i2 ∧ i2 < 8192 then i2.toNat else 8192
decreasing_by
  have hshift := unsignedShift_lt (toInt32 (i2 * 52429))
  by_cases hsmall : 0 ≤ i2 ∧ i2 < 8192
  · have hdiv := unsignedShift_eq hsmall.1 (by omega)
    rw [if_pos hsmall, if_pos (by omega)]
    omega
  · rw [if_neg hsmall, if_pos (by omega)]
    omega

/-- `getNumberChars`; what it has written if it throws. -/
def getNumberChars (number index : Int) (buf : JString) : Except JString JString := do
  let sign : Bool := number < 0
  -- the least `long` stays negative here
  let (number, charPos, buf) ← longLoop (if sign then toInt64 (-number) else number) index buf
  let (i2, charPos, buf) ← intLoop (toInt32 number) charPos buf
  let (charPos, buf) ← digitLoop i2 charPos buf
  if sign then
    let (_, buf) ← putBefore 45 charPos buf
    pure buf
  else pure buf

end IntParser

/-! ## Digits -/

def decimalDigit (d : Nat) : UInt16 := UInt16.ofNat d.digitChar.toNat

/-- The decimal digits of a number, the most significant one first. -/
def decimalDigits (n : Nat) : JString := (Nat.toDigits 10 n).map fun c => UInt16.ofNat c.toNat

/-- The canonical decimal numeral of an integer. -/
def decimal (n : Int) : JString := (if n < 0 then [45] else []) ++ decimalDigits n.natAbs

section Digits
variable {n : Nat}

theorem decimalDigits_of_lt (h : n < 10) : decimalDigits n = [decimalDigit n] := by
  rw [decimalDigits, Nat.toDigits_of_lt_base h]
  rfl

theorem decimalDigits_ten (h : 10 ≤ n) :
    decimalDigits n = decimalDigits (n / 10) ++ [decimalDigit (n % 10)] := by
  rw [decimalDigits, Nat.toDigits_of_base_le (by decide) h, List.map_append]
  rfl

theorem decimalDigits_hundred (h : 100 ≤ n) :
    decimalDigits n = decimalDigits (n / 100) ++ [decimalDigit (n / 10 % 10), decimalDigit (n % 10)] := by
  rw [decimalDigits_ten (by omega), decimalDigits_ten (n := n / 10) (by omega), Nat.div_div_eq_div_mul]
  simp

theorem length_decimalDigits_le_iff {k : Nat} (hk : 0 < k) :
    (decimalDigits n).length ≤ k ↔ n < 10 ^ k := by
  rw [decimalDigits, List.length_map]
  exact Nat.length_toDigits_le_iff (by decide) hk

theorem length_decimalDigits_pos (n : Nat) : 0 < (decimalDigits n).length := by
  rw [decimalDigits, List.length_map]
  exact Nat.length_toDigits_pos

/-- There are no leading zeros. -/
theorem head?_decimalDigits (h : 0 < n) : (decimalDigits n).head? ≠ some 48 := by
  induction n using Nat.strong_induction_on with
  | _ n ih =>
    by_cases hten : n < 10
    · rw [decimalDigits_of_lt hten]
      have hdigit : ∀ d < 10, 0 < d → [decimalDigit d].head? ≠ some 48 := by decide
      exact hdigit n hten h
    · obtain ⟨first, rest, hfront⟩ :=
        List.exists_cons_of_ne_nil (List.ne_nil_of_length_pos (length_decimalDigits_pos (n / 10)))
      have hsmaller := ih (n / 10) (by omega) (by omega)
      rw [decimalDigits_ten (by omega), hfront]
      rwa [hfront] at hsmaller

end Digits

/-- **`stringSize` counts the digits.**  In round `i` there are at least `i` digits; the last
power of ten does not fit a `long`, and is not compared with. -/
theorem stringSizeFrom_eq {n : Nat} (hn : n < 2 ^ 63) (remaining : Nat) :
    ∀ {i : Nat} {p : Int}, i + remaining = 19 → 1 ≤ i → i ≤ (decimalDigits n).length →
      (0 < remaining → p = 10 ^ i) → stringSizeFrom n remaining i p = (decimalDigits n).length := by
  induction remaining with
  | zero =>
    intro i p hi _ hle _
    have hlength : (decimalDigits n).length ≤ 19 := (length_decimalDigits_le_iff (by decide)).mpr (by omega)
    show (19 : Int) = _
    omega
  | succ remaining ih =>
    intro i p hi hpos hle hp
    have hpow : p = ((10 ^ i : Nat) : Int) := by
      rw [hp (Nat.succ_pos _)]
      norm_cast
    rw [stringSizeFrom, hpow]
    by_cases hlt : n < 10 ^ i
    · have hdigits : (decimalDigits n).length ≤ i := (length_decimalDigits_le_iff hpos).mpr hlt
      rw [if_pos (by exact_mod_cast hlt)]
      omega
    · have hdigits : ¬ (decimalDigits n).length ≤ i := fun h =>
        hlt ((length_decimalDigits_le_iff hpos).mp h)
      rw [if_neg (by exact_mod_cast hlt)]
      refine @ih (i + 1) _ (by omega) (by omega) (by omega) fun hremaining => ?_
      have hbound : 10 ^ i ≤ 10 ^ 17 := Nat.pow_le_pow_right (by decide) (by omega)
      have hpositive : 0 < 10 ^ i := Nat.pow_pos (by decide)
      rw [toInt64_of_bounds (by omega) (by omega), Int.pow_succ', Int.natCast_pow]
      rfl

theorem stringSize_eq {n : Nat} (hn : n < 2 ^ 63) : stringSize n = (decimalDigits n).length :=
  stringSizeFrom_eq hn 18 rfl le_rfl (length_decimalDigits_pos n) fun _ => rfl

/-! ## The loops -/

namespace IntParser

/-- The characters stand from `charPos` up to `stop`, and elsewhere the array is as it was
at the start. -/
structure Writing (start : JString) (stop : Nat) (written : JString) (charPos : Int)
    (buf : JString) : Prop where
  stop_le : stop ≤ start.length
  start_lt : start.length < 2 ^ 31
  charPos_nonneg : 0 ≤ charPos
  charPos_add : charPos + written.length = stop
  buf_eq : buf = replaceFrom start charPos written

section Writing
variable {start buf written : JString} {stop : Nat} {charPos : Int}

/-- One more character in front of the others. -/
theorem replaceFrom_set {n : Nat} (hn : n + 1 + written.length ≤ start.length) (ch : UInt16) :
    (replaceFrom start ((n + 1 : Nat) : Int) written).set n ch = replaceFrom start n (ch :: written) := by
  have htake : (start.take (n + 1)).set n ch = start.take n ++ [ch] := by
    rw [List.take_add_one, List.getElem?_eq_getElem (by omega), Option.toList_some,
      List.set_append_right _ _ (by rw [List.length_take]; omega), List.length_take,
      Nat.min_eq_left (by omega), Nat.sub_self, List.set_cons_zero]
  have hrest : n + 1 + written.length = n + (ch :: written).length := by
    rw [List.length_cons]
    omega
  rw [replaceFrom, replaceFrom, Int.toNat_natCast, Int.toNat_natCast, List.append_assoc,
    List.set_append_left _ _ (by rw [List.length_take]; omega), htake, hrest]
  simp

theorem Writing.putBefore (h : Writing start stop written charPos buf)
    (hroom : written.length < stop) (ch : UInt16) :
    ∃ charPos' buf', putBefore ch charPos buf = .ok (charPos', buf') ∧
      Writing start stop (ch :: written) charPos' buf' := by
  obtain ⟨hstop, hstart, hnonneg, hadd, rfl⟩ := h
  obtain ⟨n, hn⟩ := Int.eq_ofNat_of_zero_le (show 0 ≤ charPos - 1 by omega)
  obtain rfl : charPos = ((n + 1 : Nat) : Int) := by omega
  have hlength : (replaceFrom start ((n + 1 : Nat) : Int) written).length = start.length := by
    rw [replaceFrom, List.length_append, List.length_append, List.length_take, List.length_drop]
    omega
  have hstore : store (replaceFrom start ((n + 1 : Nat) : Int) written)
      (toInt32 (((n + 1 : Nat) : Int) - 1)) ch = some (replaceFrom start n (ch :: written)) := by
    rw [hn, toInt32_of_nat (by omega), store, if_pos (by omega), Int.toNat_natCast,
      replaceFrom_set (by omega)]
  refine ⟨_, _, by rw [IntParser.putBefore, hstore], hstop, hstart, ?_, ?_, ?_⟩
  · rw [hn, toInt32_of_nat (by omega)]
    omega
  · rw [hn, toInt32_of_nat (by omega), List.length_cons]
    omega
  · rw [hn, toInt32_of_nat (by omega)]

theorem digitOnes_eq : ∀ r < 100, DigitOnes[r]? = some (decimalDigit (r % 10)) := by decide

theorem digitTens_eq : ∀ r < 100, DigitTens[r]? = some (decimalDigit (r / 10)) := by decide

theorem digits_eq : ∀ r < 10, digits[r]? = some (decimalDigit r) := by decide

theorem Writing.putDigit (h : Writing start stop written charPos buf)
    (hroom : written.length < stop) {table : JString} {r : Nat} {ch : UInt16}
    (htable : table[r]? = some ch) :
    ∃ charPos' buf', putDigit table r charPos buf = .ok (charPos', buf') ∧
      Writing start stop (ch :: written) charPos' buf' := by
  have hchar : charAt table r = some ch := by
    rw [charAt, if_pos (Int.natCast_nonneg r), Int.toNat_natCast, htable]
  rw [IntParser.putDigit, hchar]
  exact h.putBefore hroom ch

/-- Two digits off the number, and before what is written. -/
theorem Writing.twoDigits {n : Nat} (h : Writing start stop written charPos buf) (hn : 100 ≤ n)
    (hroom : (decimalDigits n ++ written).length ≤ stop) :
    ∃ charPos₁ buf₁ charPos₂ buf₂ written',
      IntParser.putDigit DigitOnes ((n % 100 : Nat) : Int) charPos buf = .ok (charPos₁, buf₁) ∧
      IntParser.putDigit DigitTens ((n % 100 : Nat) : Int) charPos₁ buf₁ = .ok (charPos₂, buf₂) ∧
      Writing start stop written' charPos₂ buf₂ ∧
      decimalDigits (n / 100) ++ written' = decimalDigits n ++ written := by
  have hdigits := decimalDigits_hundred hn
  rw [hdigits, List.length_append, List.length_append] at hroom
  simp only [List.length_cons, List.length_nil] at hroom
  obtain ⟨charPos₁, buf₁, hones, h₁⟩ := h.putDigit (by omega)
    (digitOnes_eq (n % 100) (Nat.mod_lt n (by decide)))
  obtain ⟨charPos₂, buf₂, htens, h₂⟩ := h₁.putDigit (by rw [List.length_cons]; omega)
    (digitTens_eq (n % 100) (Nat.mod_lt n (by decide)))
  refine ⟨charPos₁, buf₁, charPos₂, buf₂, _, hones, htens, h₂, ?_⟩
  rw [hdigits, show n % 100 / 10 = n / 10 % 10 by omega, show n % 100 % 10 = n % 10 by omega]
  simp

/-! ### Arithmetic -/

theorem tdiv_hundred (n : Nat) : (n : Int).tdiv 100 = ((n / 100 : Nat) : Int) := by
  rw [Int.tdiv_eq_ediv_of_nonneg (Int.natCast_nonneg n)]
  omega

/-- The shifts of a `long` add up to the product with 100. -/
theorem long_remainder {n : Nat} (hn : n < 2 ^ 63) :
    toInt32 (toInt64 (n - toInt64 (toInt64 (toInt64 (((n / 100 : Nat) : Int) * 2 ^ 6) +
      toInt64 (((n / 100 : Nat) : Int) * 2 ^ 5)) + toInt64 (((n / 100 : Nat) : Int) * 2 ^ 2)))) =
        ((n % 100 : Nat) : Int) := by
  have hshifts (q : Int) : toInt64 (toInt64 (toInt64 (q * 2 ^ 6) + toInt64 (q * 2 ^ 5)) +
      toInt64 (q * 2 ^ 2)) = toInt64 (q * 2 ^ 6 + q * 2 ^ 5 + q * 2 ^ 2) := by
    simp only [toInt64, Int.bmod_add_bmod, Int.add_bmod_bmod]
  rw [hshifts, toInt64_of_bounds (n := _ + _) (by omega) (by omega),
    toInt64_of_bounds (by omega) (by omega), toInt32_of_bounds (by omega) (by omega)]
  omega

/-- The shifts of an `int` add up to the product with 100. -/
theorem int_remainder {n : Nat} (hn : n < 2 ^ 31) :
    toInt32 (n - toInt32 (toInt32 (toInt32 (((n / 100 : Nat) : Int) * 2 ^ 6) +
      toInt32 (((n / 100 : Nat) : Int) * 2 ^ 5)) + toInt32 (((n / 100 : Nat) : Int) * 2 ^ 2))) =
        ((n % 100 : Nat) : Int) := by
  have hshifts (q : Int) : toInt32 (toInt32 (toInt32 (q * 2 ^ 6) + toInt32 (q * 2 ^ 5)) +
      toInt32 (q * 2 ^ 2)) = toInt32 (q * 2 ^ 6 + q * 2 ^ 5 + q * 2 ^ 2) := by
    simp only [toInt32, Int.bmod_add_bmod, Int.add_bmod_bmod]
  rw [hshifts, toInt32_of_bounds (n := _ + _) (by omega) (by omega),
    toInt32_of_bounds (by omega) (by omega)]
  omega

/-- The shifts add up to the product with 10. -/
theorem digit_remainder {n : Nat} (hn : n < 65536) :
    toInt32 (n - toInt32 (toInt32 (((n / 10 : Nat) : Int) * 2 ^ 3) +
      toInt32 (((n / 10 : Nat) : Int) * 2 ^ 1))) = ((n % 10 : Nat) : Int) := by
  have hshifts (q : Int) : toInt32 (toInt32 (q * 2 ^ 3) + toInt32 (q * 2 ^ 1)) =
      toInt32 (q * 2 ^ 3 + q * 2 ^ 1) := by
    simp only [toInt32, Int.bmod_add_bmod, Int.add_bmod_bmod]
  rw [hshifts, toInt32_of_bounds (n := _ + _) (by omega) (by omega),
    toInt32_of_bounds (by omega) (by omega)]
  omega

/-! ### What the loops do -/

/-- A loop that takes two digits off a number below `bound` while it is not below `limit`. -/
structure TakesTwo (loop : Int → Int → JString → Except JString (Int × Int × JString))
    (limit bound : Nat) : Prop where
  limit_le : 100 ≤ limit
  leave : ∀ n < limit, ∀ charPos buf, loop (n : Nat) charPos buf = .ok ((n : Int), charPos, buf)
  round : ∀ n, limit ≤ n → n < bound → ∀ charPos buf, loop (n : Nat) charPos buf = do
    let (charPos, buf) ← IntParser.putDigit DigitOnes ((n % 100 : Nat) : Int) charPos buf
    let (charPos, buf) ← IntParser.putDigit DigitTens ((n % 100 : Nat) : Int) charPos buf
    loop ((n / 100 : Nat) : Int) charPos buf

theorem takesTwo_longLoop : TakesTwo longLoop (2 ^ 31) (2 ^ 63) where
  limit_le := by decide
  leave := by
    intro n hn charPos buf
    rw [IntParser.longLoop, if_neg (by omega)]
  round := by
    intro n hlimit hbound charPos buf
    rw [IntParser.longLoop, if_pos (by omega)]
    simp only [tdiv_hundred, long_remainder hbound]

theorem takesTwo_intLoop : TakesTwo intLoop 65536 (2 ^ 31) where
  limit_le := by decide
  leave := by
    intro n hn charPos buf
    rw [IntParser.intLoop, if_neg (by omega)]
  round := by
    intro n hlimit hbound charPos buf
    rw [IntParser.intLoop, if_pos (by omega)]
    simp only [tdiv_hundred, int_remainder hbound]

/-- **The loops that take two digits** leave a number below the limit, and the digits they
take off are written before the others. -/
theorem Writing.takeTwo {loop : Int → Int → JString → Except JString (Int × Int × JString)}
    {limit bound n : Nat} (htwo : TakesTwo loop limit bound) (hn : n < bound)
    (h : Writing start stop written charPos buf)
    (hroom : (decimalDigits n ++ written).length ≤ stop) :
    ∃ (m : Nat) (charPos' : Int) (buf' written' : JString),
      loop n charPos buf = .ok ((m : Int), charPos', buf') ∧ m < limit ∧
        Writing start stop written' charPos' buf' ∧
          decimalDigits m ++ written' = decimalDigits n ++ written := by
  -- Induction on the number, which a round divides by a hundred.
  induction n using Nat.strong_induction_on generalizing written charPos buf with
  | _ n ih =>
    by_cases hlarge : limit ≤ n
    · have hhundred : 100 ≤ n := htwo.limit_le.trans hlarge
      obtain ⟨charPos₁, buf₁, charPos₂, buf₂, written₂, hones, htens, h₂, htext⟩ :=
        h.twoDigits hhundred hroom
      rw [← htext] at hroom
      obtain ⟨m, charPos', buf', written', hrest, hm, h', htext'⟩ :=
        ih (n / 100) (by omega) (by omega) h₂ hroom
      refine ⟨m, charPos', buf', written', ?_, hm, h', htext'.trans htext⟩
      rw [htwo.round n hlarge hn, hones, ok_bind]
      dsimp only
      rw [htens, ok_bind]
      exact hrest
    · have hlt := Nat.not_le.mp hlarge
      exact ⟨n, charPos, buf, written, htwo.leave n hlt charPos buf, hlt, h, rfl⟩

/-- **The last loop** leaves nothing. -/
theorem Writing.digitLoop {n : Nat} (hn : n < 65536) (h : Writing start stop written charPos buf)
    (hroom : (decimalDigits n ++ written).length ≤ stop) :
    ∃ charPos' buf', digitLoop n charPos buf = .ok (charPos', buf') ∧
      Writing start stop (decimalDigits n ++ written) charPos' buf' := by
  induction n using Nat.strong_induction_on generalizing written charPos buf with
  | _ n ih =>
    have hpos := length_decimalDigits_pos n
    rw [List.length_append] at hroom
    obtain ⟨charPos₁, buf₁, hdigit, h₁⟩ := h.putDigit (by omega)
      (digits_eq (n % 10) (Nat.mod_lt n (by decide)))
    have hq : unsignedShift (toInt32 ((n : Int) * 52429)) 19 = ((n / 10 : Nat) : Int) :=
      unsignedShift_eq (Int.natCast_nonneg n) (by omega)
    rw [IntParser.digitLoop]
    simp only [hq, digit_remainder hn]
    rw [hdigit, ok_bind]
    dsimp only
    by_cases hlast : n < 10
    · rw [if_pos (by omega)]
      rw [Nat.mod_eq_of_lt hlast] at h₁
      refine ⟨charPos₁, buf₁, rfl, ?_⟩
      rw [decimalDigits_of_lt hlast]
      exact h₁
    · have hten := decimalDigits_ten (Nat.not_lt.mp hlast)
      rw [hten, List.length_append, List.length_singleton] at hroom
      obtain ⟨charPos', buf', hrest, h'⟩ := ih (n / 10) (by omega) (by omega) h₁
        (by rw [List.length_append, List.length_cons]; omega)
      refine ⟨charPos', buf', ?_, ?_⟩
      · rw [if_neg (by omega)]
        exact hrest
      · rw [hten, List.append_assoc]
        exact h'

/-- What stands in the array in the end. -/
theorem Writing.eq_replaceFrom (h : Writing start stop written charPos buf) :
    buf = replaceFrom start ((stop : Int) - written.length) written := by
  have hpos : charPos = (stop : Int) - written.length := by
    have hadd := h.charPos_add
    omega
  rw [h.buf_eq, hpos]

/-- The number without its sign. -/
theorem negated_eq {number : Int} (hlow : -2 ^ 63 < number) (hhigh : number < 2 ^ 63) :
    (if decide (number < 0) = true then toInt64 (-number) else number) = (number.natAbs : Int) := by
  by_cases hneg : number < 0
  · rw [if_pos (by simpa using hneg), toInt64_of_bounds (by omega) (by omega)]
    omega
  · rw [if_neg (by simpa using hneg)]
    omega

/-- **`getNumberChars` writes the numeral**, so that it ends where it is told to; the least
`long` is the one number that has no negative. -/
theorem getNumberChars_spec {number : Int} (hlow : -2 ^ 63 < number) (hhigh : number < 2 ^ 63)
    {index : Nat} (hroom : (decimal number).length ≤ index) (hindex : index ≤ buf.length)
    (hsize : buf.length < 2 ^ 31) :
    getNumberChars number index buf =
      .ok (replaceFrom buf ((index : Int) - (decimal number).length) (decimal number)) := by
  have hdigits : (decimalDigits number.natAbs ++ []).length ≤ index := by
    rw [decimal, List.length_append] at hroom
    rw [List.append_nil]
    omega
  have hstart : Writing buf index [] index buf :=
    ⟨hindex, hsize, Int.natCast_nonneg index, by simp, by simp [replaceFrom]⟩
  obtain ⟨m₁, charPos₁, buf₁, written₁, hlong, hm₁, h₁, htext₁⟩ :=
    hstart.takeTwo takesTwo_longLoop (by omega) hdigits
  rw [← htext₁] at hdigits
  obtain ⟨m₂, charPos₂, buf₂, written₂, hint, hm₂, h₂, htext₂⟩ :=
    h₁.takeTwo takesTwo_intLoop hm₁ hdigits
  rw [← htext₂] at hdigits
  obtain ⟨charPos₃, buf₃, hlast, h₃⟩ := h₂.digitLoop hm₂ hdigits
  rw [htext₂, htext₁, List.append_nil] at h₃
  -- the three loops one after another, and then the sign
  rw [getNumberChars, negated_eq hlow hhigh, hlong, ok_bind]
  dsimp only
  rw [toInt32_of_nat hm₁, hint, ok_bind]
  dsimp only
  rw [hlast, ok_bind]
  dsimp only
  by_cases hneg : number < 0
  · have htext : decimal number = 45 :: decimalDigits number.natAbs := by
      rw [decimal, if_pos hneg]
      rfl
    rw [htext, List.length_cons] at hroom
    obtain ⟨charPos₄, buf₄, hsign, h₄⟩ := h₃.putBefore (by omega) 45
    rw [if_pos (by simpa using hneg), hsign, ok_bind, htext]
    exact congrArg Except.ok h₄.eq_replaceFrom
  · have htext : decimal number = decimalDigits number.natAbs := by
      rw [decimal, if_neg hneg]
      rfl
    rw [if_neg (by simpa using hneg), htext]
    exact congrArg Except.ok h₃.eq_replaceFrom

/-- The least `long` is its own negative, and nothing of it is left in an `int`. -/
theorem getNumberChars_least {index : Nat} (hroom : 2 ≤ index) (hindex : index ≤ buf.length)
    (hsize : buf.length < 2 ^ 31) :
    getNumberChars (-2 ^ 63) index buf = .ok (replaceFrom buf ((index : Int) - 2) [45, 48]) := by
  have hlong : longLoop (-2 ^ 63) index buf = .ok (-2 ^ 63, (index : Int), buf) := by
    rw [IntParser.longLoop, if_neg (by decide)]
  have hint : intLoop 0 index buf = .ok (0, (index : Int), buf) := by
    rw [IntParser.intLoop, if_neg (by decide)]
  have hstart : Writing buf index [] index buf :=
    ⟨hindex, hsize, Int.natCast_nonneg index, by simp, by simp [replaceFrom]⟩
  have hzero : decimalDigits 0 ++ [] = [48] := by decide
  obtain ⟨charPos₁, buf₁, hlast, h₁⟩ :=
    hstart.digitLoop (n := 0) (by decide) (by rw [hzero, List.length_singleton]; omega)
  rw [hzero] at h₁
  obtain ⟨charPos₂, buf₂, hsign, h₂⟩ := h₁.putBefore (by rw [List.length_singleton]; omega) 45
  have hnegative : (if decide ((-2 ^ 63 : Int) < 0) = true then toInt64 (- -2 ^ 63) else -2 ^ 63) =
      -2 ^ 63 := by decide
  rw [getNumberChars, hnegative, hlong, ok_bind]
  dsimp only
  rw [show toInt32 (-2 ^ 63) = 0 by decide, hint, ok_bind]
  dsimp only
  rw [show (0 : Int) = ((0 : Nat) : Int) from rfl, hlast, ok_bind]
  dsimp only
  rw [if_pos (by decide), hsign, ok_bind]
  exact congrArg Except.ok h₂.eq_replaceFrom

end Writing
end IntParser
end Chttpc
