import Chttpc.UrlText

/-!
# `MutableUrl` as a `CharSequence`

`subSequence(start, end)` is to have the characters from `start` up to `end`, which may be
the length.  It hands its arguments on to `new String(char[], int, int)`, which expects an
index and a count, and it refuses an end that is not an index of a character.

So a subsequence that starts at 0 is right unless it reaches the end of the text, and any
other one is too long by `start`.  What it has too much comes from the array, where the text
may have ended already; for the same reason some ranges that are none, such as one whose
end is before its start, are not refused.
-/

namespace Chttpc

/-- `new String(char[], int, int)`. -/
def newString (value : JString) (offset count : Int) : Option JString :=
  if 0 ≤ offset ∧ 0 ≤ count ∧ offset ≤ value.length - count then some (slice value offset count)
  else none

namespace MutableUrl

def charAt (index : Int) (url : MutableUrl) : Option UInt16 :=
  if url.length ≤ index then none else Chttpc.charAt url.buffer index

def subSequence (start stop : Int) (url : MutableUrl) : Option JString :=
  -- `stop` is passed on as the count
  if url.length ≤ start ∨ url.length ≤ stop then none else newString url.buffer start stop

/-- The indices name a range of the text. -/
def IsRange (url : MutableUrl) (start stop : Int) : Prop :=
  0 ≤ start ∧ start ≤ stop ∧ stop ≤ url.length
  deriving Decidable

/-- What `CharSequence` asks of `subSequence`: the characters from `start` up to `stop`, and
an exception if there are none such. -/
def LawfulAt (url : MutableUrl) (start stop : Int) : Prop :=
  if url.IsRange start stop then
    ∃ chars, url.subSequence start stop = some chars ∧ (chars.length : Int) = stop - start ∧
      ∀ i < chars.length, chars[i]? = url.charAt (start + i)
  else url.subSequence start stop = none

/-- Where `subSequence` does it. -/
def InFront (url : MutableUrl) (start stop : Int) : Prop :=
  if url.IsRange start stop then start = 0 ∧ stop < url.length ∧ stop ≤ url.buffer.length
  else
    start < 0 ∨ stop < 0 ∨ url.length ≤ start ∨ url.length ≤ stop ∨
      url.buffer.length < start + stop

section Sequence
variable {url : MutableUrl} {start stop : Int}

/-- `subSequence` returns what stands in the array, and as much as `stop` says. -/
theorem subSequence_eq_some {chars : JString} (h : url.subSequence start stop = some chars) :
    start < url.length ∧ stop < url.length ∧ 0 ≤ start ∧ 0 ≤ stop ∧
      start + stop ≤ url.buffer.length ∧ chars = slice url.buffer start stop := by
  unfold subSequence at h
  by_cases hout : url.length ≤ start ∨ url.length ≤ stop
  · rw [if_pos hout] at h
    cases h
  · rw [if_neg hout, newString] at h
    split at h
    · cases h
      refine ⟨by omega, by omega, by omega, by omega, by omega, rfl⟩
    · cases h

theorem subSequence_eq_none : url.subSequence start stop = none ↔
    start < 0 ∨ stop < 0 ∨ url.length ≤ start ∨ url.length ≤ stop ∨
      url.buffer.length < start + stop := by
  unfold subSequence
  by_cases hout : url.length ≤ start ∨ url.length ≤ stop
  · rw [if_pos hout]
    exact iff_of_true rfl (by omega)
  · rw [if_neg hout, newString]
    split
    · exact iff_of_false nofun (by omega)
    · exact iff_of_true rfl (by omega)

/-- The characters at the front of the text. -/
theorem getElem?_front {n i : Nat} (hn : n < url.length) (hi : i < n) :
    (url.buffer.take n)[i]? = url.charAt (0 + i) := by
  have hin : ¬ url.length ≤ 0 + (i : Int) := by omega
  have hindex : (0 + (i : Int)).toNat = i := by omega
  rw [charAt, if_neg hin, Chttpc.charAt, if_pos (by omega), hindex, List.getElem?_take_of_lt hi]

/-- `charAt` shows the text, and nothing behind it. -/
theorem charAt_eq {text : JString} (h : url.toString = some text) (i : Nat) :
    url.charAt i = text[i]? := by
  unfold toString at h
  split at h
  · rename_i hlength
    obtain ⟨n, hn⟩ := Int.eq_ofNat_of_zero_le hlength.1
    cases h
    rw [hn, Int.toNat_natCast, charAt, hn]
    by_cases hi : i < n
    · rw [if_neg (by omega), Chttpc.charAt, if_pos (by omega), Int.toNat_natCast,
        List.getElem?_take_of_lt hi]
    · rw [if_pos (by omega), List.getElem?_eq_none]
      rw [List.length_take]
      omega
  · cases h

/-- On a range, this is `toString().substring(start, end)`. -/
theorem lawfulAt_iff_substring {text : JString} (h : url.toString = some text)
    (hrange : url.IsRange start stop) :
    url.LawfulAt start stop ↔ url.subSequence start stop = some (slice text start (stop - start)) := by
  have hlength : (text.length : Int) = url.length := by
    unfold toString at h
    split at h
    · cases h
      rw [List.length_take]
      omega
    · cases h
  obtain ⟨hstart, hle, hstop⟩ := hrange
  obtain ⟨s, rfl⟩ := Int.eq_ofNat_of_zero_le hstart
  have hslice : ((slice text s (stop - s)).length : Int) = stop - s :=
    length_slice hstart (by omega) (by omega)
  have hget (i : Nat) (hi : i < (stop - s).toNat) :
      (slice text s (stop - s))[i]? = url.charAt (s + i) := by
    rw [← Int.natCast_add, charAt_eq h, slice, List.getElem?_take_of_lt hi, List.getElem?_drop,
      Int.toNat_natCast]
  rw [LawfulAt, if_pos ⟨hstart, hle, hstop⟩]
  constructor
  · rintro ⟨chars, hchars, hcount, hat⟩
    rw [hchars]
    congr 1
    refine List.ext_getElem? fun i => ?_
    by_cases hi : i < chars.length
    · rw [hat i hi, hget i (by omega)]
    · rw [List.getElem?_eq_none (by omega), List.getElem?_eq_none (by omega)]
  · intro hsub
    exact ⟨_, hsub, hslice, fun i hi => hget i (by omega)⟩

end Sequence

/-- **Where a `MutableUrl` is a `CharSequence`.**  For any object and any two indices: if
they name a range of the text, `subSequence` returns its characters exactly if the range
begins the text and does not reach its end; if they do not, it throws exactly if one of them
is negative or not below the length, or if their sum is beyond the array. -/
theorem lawful_at_iff (url : MutableUrl) (start stop : Int) :
    url.LawfulAt start stop ↔ url.InFront start stop := by
  unfold LawfulAt InFront
  by_cases hrange : url.IsRange start stop
  · obtain ⟨hstart, hle, hstop⟩ := hrange
    rw [if_pos ⟨hstart, hle, hstop⟩, if_pos ⟨hstart, hle, hstop⟩]
    constructor
    · rintro ⟨chars, hchars, hlength, -⟩
      obtain ⟨-, hlt, -, hcount, hroom, rfl⟩ := subSequence_eq_some hchars
      -- the string is as long as `stop` says
      rw [length_slice hstart hcount hroom] at hlength
      exact ⟨by omega, hlt, by omega⟩
    · rintro ⟨rfl, hlt, hroom⟩
      obtain ⟨n, rfl⟩ := Int.eq_ofNat_of_zero_le hle
      have hslice : slice url.buffer 0 n = url.buffer.take n := rfl
      have hsub : url.subSequence 0 n = some (url.buffer.take n) := by
        rw [subSequence, if_neg (by omega), newString, if_pos (by omega), hslice]
      have hlength : (url.buffer.take n).length = n := by
        rw [List.length_take]
        omega
      refine ⟨_, hsub, by rw [hlength]; omega, fun i hi => ?_⟩
      rw [hlength] at hi
      exact getElem?_front hlt hi
  · rw [if_neg hrange, if_neg hrange]
    exact subSequence_eq_none

/-- The text `abc`, in an array that has grown. -/
def abcUrl : MutableUrl := ((⟨[], 0⟩ : MutableUrl).appendString [97, 98, 99] 0 3).1

/-- A range that does not begin the text, the whole text, and a range without characters that
shows what is behind the text. -/
theorem not_lawful_at :
    abcUrl.toString = some [97, 98, 99] ∧ ¬ abcUrl.LawfulAt 1 2 ∧ ¬ abcUrl.LawfulAt 0 3 ∧
      abcUrl.subSequence 2 2 = some [99, 0] ∧ ¬ abcUrl.LawfulAt 2 2 := by
  have htext : abcUrl.toString = some [97, 98, 99] := by decide
  have hlawful (start stop : Int) (hrange : abcUrl.IsRange start stop) :=
    lawfulAt_iff_substring htext hrange
  refine ⟨htext, ?_, ?_, by decide, ?_⟩
  · rw [hlawful 1 2 (by decide)]
    decide
  · rw [hlawful 0 3 (by decide)]
    decide
  · rw [hlawful 2 2 (by decide)]
    decide

end MutableUrl
end Chttpc
