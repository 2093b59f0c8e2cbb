import Chttpc.UrlText

/-!
# Making room in a `MutableUrl`

Every `append` asks `ensureBufferSpace` for the room it needs first, and writes behind the
text without looking again.  `grow` is careful: it adds up in `long`, keeps to the limit of an
array, and throws if that is too small.  But the question whether there is need to grow is
asked in `int`, and a sum that does not fit wraps around to a negative number, for which any
array is long enough.

The product of the length and the growth ratio is a `float`.  Nothing here depends on it, so
`ensureBufferSpaceBy` takes it as an argument.  `ensureBufferSpaceBy_cases` says everything a
call can do, and is what the methods that append are to use.
-/

namespace Chttpc
namespace MutableUrl

/-- `ensureBufferSpace`, where `growBy` is the product of the length and the ratio. -/
def ensureBufferSpaceBy (growBy expectedAdditions : Int) (url : MutableUrl) :
    Except UrlException MutableUrl :=
  -- a sum that has wrapped around is less than any length
  if url.buffer.length < toInt32 (url.length + expectedAdditions) then
    match grow growBy url.buffer.length url.length expectedAdditions with
    | .error e => .error e
    | .ok newSize => .ok { url with buffer := copyOf url.buffer newSize }
  else .ok url

theorem ensureBufferSpace_eq (additions : Int) (url : MutableUrl) :
    url.ensureBufferSpace additions =
      url.ensureBufferSpaceBy (growthProduct url.buffer.length) additions := rfl

/-- The array has a length in Java, and the text ends in it. -/
structure IntSized (url : MutableUrl) : Prop where
  buffer_lt : url.buffer.length < 2 ^ 31
  length_ge : -2 ^ 31 ≤ url.length
  length_le : url.length ≤ url.buffer.length

/-- What a call is for: there is room for the additions, and the text is what it was, or
the exception says that no array is long enough. -/
def MakesRoom (growBy additions : Int) (url : MutableUrl) : Prop :=
  match url.ensureBufferSpaceBy growBy additions with
  | .ok url' => url'.length = url.length ∧ url.length + additions ≤ url'.buffer.length ∧
      url'.buffer.take url.length.toNat = url.buffer.take url.length.toNat
  | .error e => e = .arraySizeExceeded

section Space
variable {url : MutableUrl} {growBy additions : Int}

/-- A longer copy is the array with zeros behind it. -/
theorem copyOf_eq {buffer : JString} {newLength : Int} (h : buffer.length ≤ newLength) :
    copyOf buffer newLength =
      buffer ++ List.replicate (newLength.toNat - buffer.length) 0 := by
  rw [copyOf, List.take_of_length_le (by omega)]

/-- The new size is the larger one of the sum and a size that is within the limit. -/
theorem grow_cases (growBy : Int) (currentBufferLength elementsCount additions : Int) :
    (maxArrayLength < elementsCount + additions ∧
        grow growBy currentBufferLength elementsCount additions = .error .arraySizeExceeded) ∨
      elementsCount + additions ≤ maxArrayLength ∧
        ∃ newSize, grow growBy currentBufferLength elementsCount additions = .ok newSize ∧
          elementsCount + additions ≤ newSize ∧ newSize ≤ maxArrayLength := by
  unfold grow
  dsimp only
  by_cases hlimit : maxArrayLength < elementsCount + additions
  · exact .inl ⟨hlimit, if_pos (by omega)⟩
  · exact .inr ⟨by omega, _, if_neg (by omega), by omega, by omega⟩

/-- The sum as an `int`. -/
theorem toInt32_sum (h : IntSized url) (hadd : 0 ≤ additions) (hint : additions < 2 ^ 31) :
    toInt32 (url.length + additions) =
      if url.length + additions < 2 ^ 31 then url.length + additions
      else url.length + additions - 2 ^ 32 := by
  obtain ⟨hbuffer, hlow, hhigh⟩ := h
  unfold toInt32
  rw [Int.bmod_def]
  split <;> split <;> omega

/-- **Everything a call can do.**  There is no need to grow, or none is seen; the array gets
longer; or it cannot get long enough. -/
theorem ensureBufferSpaceBy_cases (h : IntSized url) (growBy : Int) (hadd : 0 ≤ additions)
    (hint : additions < 2 ^ 31) :
    ((url.length + additions ≤ url.buffer.length ∨ 2 ^ 31 ≤ url.length + additions) ∧
        url.ensureBufferSpaceBy growBy additions = .ok url) ∨
      (url.buffer.length < url.length + additions ∧ url.length + additions ≤ maxArrayLength ∧
        ∃ zeros, url.ensureBufferSpaceBy growBy additions =
            .ok { url with buffer := url.buffer ++ List.replicate zeros 0 } ∧
          url.length + additions ≤ url.buffer.length + zeros ∧
            url.buffer.length + zeros ≤ maxArrayLength) ∨
      url.buffer.length < url.length + additions ∧ maxArrayLength < url.length + additions ∧
        url.length + additions < 2 ^ 31 ∧
          url.ensureBufferSpaceBy growBy additions = .error .arraySizeExceeded := by
  have hsum := toInt32_sum h hadd hint
  have hsize := h.buffer_lt
  have hlength := h.length_le
  unfold ensureBufferSpaceBy
  rw [hsum]
  by_cases hwraps : url.length + additions < 2 ^ 31
  · rw [if_pos hwraps]
    by_cases hneed : url.buffer.length < url.length + additions
    · rw [if_pos hneed]
      rcases grow_cases growBy url.buffer.length url.length additions with
        ⟨hlimit, hgrow⟩ | ⟨hlimit, newSize, hgrow, hroom, hmax⟩
      · exact .inr (.inr ⟨hneed, hlimit, hwraps, by rw [hgrow]⟩)
      · refine .inr (.inl ⟨hneed, hlimit, newSize.toNat - url.buffer.length, ?_, by omega, by omega⟩)
        rw [hgrow, ← copyOf_eq (by omega)]
    · exact .inl ⟨.inl (by omega), if_neg hneed⟩
  · -- the sum has wrapped around
    rw [if_neg hwraps, if_neg (by omega)]
    exact .inl ⟨.inr (by omega), rfl⟩

/-- **When a call makes room.**  For an array of any length that Java can have, a text that
ends in it, and any number of additions, whatever the growth ratio says: a call either makes
room for them and keeps the text, or says that no array is long enough, exactly if the
length and the additions add up to an `int`. -/
theorem makes_room_iff (growBy additions : Int) (url : MutableUrl) (h : IntSized url)
    (hadd : 0 ≤ additions) (hint : additions < 2 ^ 31) :
    MakesRoom growBy additions url ↔ url.length + additions < 2 ^ 31 := by
  have hsize := h.buffer_lt
  have hlength := h.length_le
  unfold MakesRoom
  rcases ensureBufferSpaceBy_cases h growBy hadd hint with
    ⟨henough, hok⟩ | ⟨hneed, hlimit, zeros, hok, hroom, -⟩ | ⟨hneed, hlimit, hfits, herror⟩
  · rw [hok]
    dsimp only
    constructor
    · intro hmade
      have hroom := hmade.2.1
      omega
    · intro hfits
      exact ⟨rfl, by omega, rfl⟩
  · rw [hok]
    have hmax : maxArrayLength = 2147483615 := rfl
    refine iff_of_true ⟨rfl, ?_, List.take_append_of_le_length (by omega)⟩ (by omega)
    show url.length + additions ≤ (url.buffer ++ List.replicate zeros 0).length
    rw [List.length_append, List.length_replicate]
    omega
  · rw [herror]
    exact iff_of_true rfl hfits

end Space

theorem makes_room_five :
    (IntSized ⟨[97, 98], 2⟩ ∧ (0 : Int) ≤ 5 ∧ (5 : Int) < 2 ^ 31) ∧
      (MakesRoom 3 5 ⟨[97, 98], 2⟩ ↔ (⟨[97, 98], 2⟩ : MutableUrl).length + 5 < 2 ^ 31) :=
  have hsized : IntSized ⟨[97, 98], 2⟩ := ⟨by decide, by decide, by decide⟩
  ⟨⟨hsized, by decide, by decide⟩,
    makes_room_iff 3 5 ⟨[97, 98], 2⟩ hsized (by decide) (by decide)⟩

/-- A text of one character and the greatest number of additions. -/
theorem not_makes_room : ¬ MakesRoom 1 (2 ^ 31 - 1) ⟨[97], 1⟩ := by
  intro h
  have hok : (⟨[97], 1⟩ : MutableUrl).ensureBufferSpaceBy 1 (2 ^ 31 - 1) = .ok ⟨[97], 1⟩ := by
    decide
  rw [MakesRoom, hok] at h
  exact absurd h.2.1 (by decide)

end MutableUrl
end Chttpc
