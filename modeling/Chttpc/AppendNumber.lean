import Chttpc.NumberChars
import Chttpc.UrlSpace

/-!
# `append(long)`

The size of the numeral is computed first, room is made for it, and the digits are written
from its end.  So `stringSize` and `getNumberChars` have to agree, and they do.

The least `long` has no negative.  The method looks for it, appends the text of a number, and
then does not return: the text is that of the least `int`, and behind it comes what the two
functions make of the number, which is a sign and a zero.
-/

namespace Chttpc
namespace MutableUrl

/-- The variable `appendedLength`. -/
def appendedLength (number : Int) : Int :=
  if number < 0 then toInt32 (stringSize (toInt64 (-number)) + 1) else stringSize number

/-- `append(long)`. -/
def appendLong (number : Int) (url : MutableUrl) : MutableUrl × Option UrlException :=
  let (url, thrown) :=
    if number = -2 ^ 63 then url.appendString (IntParser.chars "-2147483648") 0 11 else (url, none)
  match thrown with
  | some e => (url, some e)
  | none =>
      -- there is no `return` before this
      url.withSpace (appendedLength number) fun url =>
        match IntParser.getNumberChars number (toInt32 (url.length + appendedLength number))
            url.buffer with
        | .ok buffer => (⟨buffer, toInt32 (url.length + appendedLength number)⟩, none)
        | .error buffer => ({ url with buffer }, some .indexOutOfBounds)

/-- What the method is for: the text with the numeral behind it, and the length with that of
the numeral added. -/
def AppendsNumeral (number : Int) (url : MutableUrl) (text : JString) : Prop :=
  ∃ url', url.appendLong number = (url', none) ∧
    url'.toString = some (text ++ decimal number) ∧
      url'.length = url.length + (decimal number).length

section Append
variable {url url' : MutableUrl} {text : JString} {number : Int}

theorem length_decimal_le (hlow : -2 ^ 63 ≤ number) (hhigh : number < 2 ^ 63) :
    (decimal number).length ≤ 20 := by
  have hdigits : (decimalDigits number.natAbs).length ≤ 19 :=
    (length_decimalDigits_le_iff (by decide)).mpr (by omega)
  rw [decimal, List.length_append]
  split
  · rw [List.length_singleton]
    omega
  · rw [List.length_nil]
    omega

/-- The size is that of the numeral. -/
theorem appendedLength_eq (hlow : -2 ^ 63 < number) (hhigh : number < 2 ^ 63) :
    appendedLength number = (decimal number).length := by
  have hsize : stringSize (number.natAbs : Int) = (decimalDigits number.natAbs).length :=
    stringSize_eq (by omega)
  have hdigits : (decimalDigits number.natAbs).length ≤ 19 :=
    (length_decimalDigits_le_iff (by decide)).mpr (by omega)
  unfold appendedLength
  by_cases hneg : number < 0
  · have habs : toInt64 (-number) = number.natAbs := by
      rw [toInt64_of_bounds (by omega) (by omega)]
      omega
    rw [if_pos hneg, habs, hsize, toInt32_of_bounds (by omega) (by omega), decimal, if_pos hneg,
      List.length_append, List.length_singleton]
    omega
  · have habs : number = number.natAbs := by omega
    rw [if_neg hneg, decimal, if_neg hneg, List.nil_append, ← hsize, ← habs]

/-- A method that has returned has had its room made. -/
theorem withSpace_eq_none {additions : Int} {rest : MutableUrl → MutableUrl × Option UrlException}
    (h : url.withSpace additions rest = (url', none)) :
    ∃ grown, url.ensureBufferSpace additions = .ok grown ∧ grown.length = url.length ∧
      rest grown = (url', none) := by
  unfold withSpace at h
  cases hspace : url.ensureBufferSpace additions with
  | error e =>
    rw [hspace] at h
    cases h
  | ok grown =>
    rw [hspace] at h
    refine ⟨grown, rfl, ?_, h⟩
    unfold ensureBufferSpace at hspace
    split at hspace
    · split at hspace
      · cases hspace
      · cases hspace
        rfl
    · cases hspace
      rfl

theorem appendString_length {string : JString} {off count : Int}
    (h : url.appendString string off count = (url', none)) :
    url'.length = toInt32 (url.length + count) := by
  obtain ⟨grown, -, hlength, hcopied⟩ := withSpace_eq_none h
  rw [← hlength]
  cases hchars : getChars string off count grown.buffer grown.length with
  | none =>
    rw [hchars] at hcopied
    cases hcopied
  | some buffer =>
    rw [hchars] at hcopied
    cases hcopied
    rfl

/-- What is appended behind the text of the least `int`, or else all that is appended. -/
theorem appendNumber_length {rest : MutableUrl → Except JString JString} {additions : Int}
    (h : url.withSpace additions (fun url => match rest url with
      | .ok buffer => (⟨buffer, toInt32 (url.length + additions)⟩, none)
      | .error buffer => ({ url with buffer }, some .indexOutOfBounds)) = (url', none)) :
    url'.length = toInt32 (url.length + additions) := by
  obtain ⟨grown, -, hlength, hrest⟩ := withSpace_eq_none h
  rw [← hlength]
  cases hwritten : rest grown with
  | error buffer =>
    rw [hwritten] at hrest
    cases hrest
  | ok buffer =>
    rw [hwritten] at hrest
    cases hrest
    rfl

/-- The least `long` appends thirteen characters, if it appends any. -/
theorem appendLong_least (h : url.appendLong (-2 ^ 63) = (url', none)) :
    url'.length = toInt32 (toInt32 (url.length + 11) + 2) := by
  have hlength : appendedLength (-2 ^ 63) = 2 := by decide
  unfold appendLong at h
  rw [if_pos rfl, hlength] at h
  rcases hfirst : url.appendString (IntParser.chars "-2147483648") 0 11 with ⟨url₁, thrown⟩
  rw [hfirst] at h
  cases thrown with
  | some e => cases h
  | none =>
    rw [← appendString_length hfirst]
    exact appendNumber_length h

/-- Any other number is written behind the text. -/
theorem appendLong_of_ne (hnumber : number ≠ -2 ^ 63) :
    url.appendLong number = url.withSpace (appendedLength number) fun url =>
      match IntParser.getNumberChars number (toInt32 (url.length + appendedLength number))
          url.buffer with
      | .ok buffer => (⟨buffer, toInt32 (url.length + appendedLength number)⟩, none)
      | .error buffer => ({ url with buffer }, some .indexOutOfBounds) := by
  rw [appendLong, if_neg hnumber]

theorem intSized_of_toString (htext : url.toString = some text)
    (hsize : url.buffer.length < 2 ^ 31) :
    IntSized url ∧ url.length = text.length ∧ url.buffer.take text.length = text := by
  unfold toString at htext
  split at htext
  · rename_i hlength
    cases htext
    have hcount : (url.buffer.take url.length.toNat).length = url.length.toNat := by
      rw [List.length_take]
      omega
    rw [hcount]
    exact ⟨⟨hsize, by omega, hlength.2⟩, by omega, rfl⟩
  · cases htext

/-- With room behind the text, the numeral is written there. -/
theorem appendsNumeral_of_room (htext : url.toString = some text)
    (hlow : -2 ^ 63 < number) (hhigh : number < 2 ^ 63) {grown : MutableUrl} {zeros : Nat}
    (hspace : url.ensureBufferSpace (decimal number).length = .ok grown)
    (hgrown : grown = ⟨url.buffer ++ List.replicate zeros 0, url.length⟩)
    (hroom : text.length + (decimal number).length ≤ grown.buffer.length)
    (hsize : grown.buffer.length < 2 ^ 31) : AppendsNumeral number url text := by
  subst hgrown
  have hlarge : url.buffer.length < 2 ^ 31 := by
    rw [List.length_append] at hsize
    omega
  obtain ⟨hsized, hlength, htake⟩ := intSized_of_toString htext hlarge
  have hle := hsized.length_le
  have hsum : toInt32 (url.length + (decimal number).length) =
      ((text.length + (decimal number).length : Nat) : Int) := by
    rw [hlength, ← Int.natCast_add]
    exact toInt32_of_nat (by omega)
  have hpos : (((text.length + (decimal number).length : Nat) : Int) - (decimal number).length) =
      text.length := by omega
  have hwritten := IntParser.getNumberChars_spec hlow hhigh
    (Nat.le_add_left (decimal number).length text.length) hroom hsize
  rw [hpos] at hwritten
  -- the text stands at the front of the array that has grown
  have hfront : (replaceFrom (url.buffer ++ List.replicate zeros 0) text.length (decimal number)).take
      (text.length + (decimal number).length) = text ++ decimal number := by
    have hcount : (text ++ decimal number).length = text.length + (decimal number).length :=
      List.length_append
    have hbefore : (url.buffer ++ List.replicate zeros 0).take text.length = text := by
      rw [List.take_append_of_le_length (by omega), htake]
    rw [replaceFrom, Int.toNat_natCast, hbefore, ← hcount, List.take_left]
  refine ⟨⟨replaceFrom (url.buffer ++ List.replicate zeros 0) text.length (decimal number),
    ((text.length + (decimal number).length : Nat) : Int)⟩, ?_, ?_, ?_⟩
  · rw [appendLong_of_ne (by omega), appendedLength_eq hlow hhigh, withSpace, hspace]
    dsimp only
    rw [hsum, hwritten]
  · rw [toString, if_pos, Int.toNat_natCast, hfront]
    dsimp only
    rw [replaceFrom, List.length_append, List.length_append, List.length_take, List.length_drop,
      List.length_append]
    rw [List.length_append] at hroom
    omega
  · rw [hlength]
    exact Int.natCast_add _ _

end Append

/-- **When `append(long)` appends the numeral.**  For any text, whatever is behind it in the
array, and any `long`: the text gets the canonical decimal numeral of the number behind it,
and the length grows by the length of the numeral, exactly if the number is not the least
`long` and there is room for the numeral in the array or in one that it can grow to. -/
theorem appends_numeral_iff (url : MutableUrl) (text : JString) (htext : url.toString = some text)
    (hsize : url.buffer.length < 2 ^ 31) (number : Int) (hlow : -2 ^ 63 ≤ number)
    (hhigh : number < 2 ^ 63) :
    AppendsNumeral number url text ↔ number ≠ -2 ^ 63 ∧
      (text.length + (decimal number).length ≤ url.buffer.length ∨
        (text.length : Int) + (decimal number).length ≤ maxArrayLength) := by
  obtain ⟨hsized, hlength, -⟩ := intSized_of_toString htext hsize
  have hle := hsized.length_le
  have hmax : maxArrayLength = 2147483615 := rfl
  have hnumeral := length_decimal_le hlow hhigh
  have hcases (hne : number ≠ -2 ^ 63) := ensureBufferSpaceBy_cases hsized
    (growthProduct url.buffer.length) (Int.natCast_nonneg (decimal number).length) (by omega)
  constructor
  · rintro ⟨url', happend, -, hgrows⟩
    have hne : number ≠ -2 ^ 63 := by
      rintro rfl
      have hleast := appendLong_least happend
      have htwenty : (decimal (-2 ^ 63)).length = 20 := by decide
      have hfirst := toInt32_emod (url.length + 11)
      have hsecond := toInt32_emod (toInt32 (url.length + 11) + 2)
      omega
    refine ⟨hne, ?_⟩
    rw [appendLong_of_ne hne, appendedLength_eq (by omega) hhigh] at happend
    have hbounds := toInt32_bounds (url.length + (decimal number).length)
    rw [← appendNumber_length happend] at hbounds
    obtain ⟨grown, hspace, -⟩ := withSpace_eq_none happend
    rw [ensureBufferSpace_eq] at hspace
    rcases hcases hne with ⟨henough, -⟩ | ⟨-, hlimit, -⟩ | ⟨-, -, -, herror⟩
    · omega
    · omega
    · rw [herror] at hspace
      cases hspace
  · rintro ⟨hne, hroom⟩
    rcases hcases hne with ⟨henough, hok⟩ | ⟨-, hlimit, zeros, hok, hroom', hmax'⟩ | ⟨hneed, hlimit, -⟩
    · have hsame : url = ⟨url.buffer ++ List.replicate 0 0, url.length⟩ := by simp
      exact appendsNumeral_of_room htext (by omega) hhigh hok hsame (by omega) (by omega)
    · refine appendsNumeral_of_room htext (by omega) hhigh hok rfl ?_ ?_
      · simp
        omega
      · simp
        omega
    · omega

theorem appends_numeral_negative :
    ((⟨[97], 1⟩ : MutableUrl).toString = some [97] ∧ (⟨[97], 1⟩ : MutableUrl).buffer.length < 2 ^ 31 ∧
        (-2 ^ 63 : Int) ≤ -42 ∧ (-42 : Int) < 2 ^ 63) ∧
      (AppendsNumeral (-42) ⟨[97], 1⟩ [97] ↔ (-42 : Int) ≠ -2 ^ 63 ∧
        (([97] : JString).length + (decimal (-42)).length ≤ (⟨[97], 1⟩ : MutableUrl).buffer.length ∨
          (([97] : JString).length : Int) + (decimal (-42)).length ≤ maxArrayLength)) :=
  ⟨⟨by decide, by decide, by decide, by decide⟩,
    appends_numeral_iff ⟨[97], 1⟩ [97] (by decide) (by decide) (-42) (by decide) (by decide)⟩

/-- The least `long`: the text of the least `int`, a sign and a zero. -/
theorem not_appends_numeral :
    (∃ url', (⟨[97], 1⟩ : MutableUrl).appendLong (-2 ^ 63) = (url', none) ∧
      url'.toString = some (IntParser.chars "a-2147483648-0")) ∧
    ¬ AppendsNumeral (-2 ^ 63) ⟨[97], 1⟩ [97] := by
  have hfirst : (⟨[97], 1⟩ : MutableUrl).appendString (IntParser.chars "-2147483648") 0 11 =
      (⟨IntParser.chars "a-2147483648", 12⟩, none) := by decide
  have hspace : (⟨IntParser.chars "a-2147483648", 12⟩ : MutableUrl).ensureBufferSpace 2 =
      .ok ⟨IntParser.chars "a-2147483648" ++ List.replicate 18 0, 12⟩ := by decide
  have hwritten : IntParser.getNumberChars (-2 ^ 63) ((14 : Nat) : Int)
      (IntParser.chars "a-2147483648" ++ List.replicate 18 0) =
        .ok (replaceFrom (IntParser.chars "a-2147483648" ++ List.replicate 18 0) 12 [45, 48]) :=
    IntParser.getNumberChars_least (by decide) (by decide) (by decide)
  constructor
  · refine ⟨⟨replaceFrom (IntParser.chars "a-2147483648" ++ List.replicate 18 0) 12 [45, 48], 14⟩,
      ?_, by decide⟩
    rw [appendLong, if_pos rfl, hfirst]
    dsimp only
    rw [show appendedLength (-2 ^ 63) = 2 by decide, withSpace, hspace]
    dsimp only
    rw [show toInt32 (12 + 2) = ((14 : Nat) : Int) by decide, hwritten]
    rfl
  · rintro ⟨url', happend, -, hgrows⟩
    rw [appendLong_least happend] at hgrows
    exact absurd hgrows (by decide)

end MutableUrl
end Chttpc
