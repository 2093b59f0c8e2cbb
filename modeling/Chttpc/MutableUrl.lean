import Chttpc.HeaderAccess
import Chttpc.Runs

/-!
# `MutableUrl`, and the string it stands for

A `MutableUrl` keeps its text at the front of an array that it grows as needed.
What lies behind the text becomes visible again when `setLength` moves the end, so
a text is not enough to say what the methods do: the rest of the array matters too.

`Represents` says that the rest is all zeros, which is what makes a `MutableUrl` a
string.  Two overloads of `append` copy the range they are given.  The third hands
`count` to `String.getChars` where that expects the end of the range, so it copies
less than it is asked for, and counts what lies behind the text as copied.
`refines_string_iff` says which calls get away with it.

The result of a method is the object it leaves behind, and the exception it throws.
-/

namespace Chttpc

/-- The object: `buffer` is the array, of which the first `length` characters count. -/
structure MutableUrl where
  buffer : JString
  length : Int
  deriving DecidableEq, Repr

inductive UrlException
  | indexOutOfBounds
  /-- `RuntimeException("Java array size exceeded")` -/
  | arraySizeExceeded
  deriving DecidableEq, Repr

/-- The characters from an index on. -/
def slice (chars : JString) (off count : Int) : JString := (chars.drop off.toNat).take count.toNat

/-- An array with some characters replaced, from an index on. -/
def replaceFrom (buffer : JString) (start : Int) (chars : JString) : JString :=
  buffer.take start.toNat ++ chars ++ buffer.drop (start.toNat + chars.length)

/-- `Arrays.copyOf`. -/
def copyOf (buffer : JString) (newLength : Int) : JString :=
  buffer.take newLength.toNat ++ List.replicate (newLength.toNat - buffer.length) 0

/-- `String.getChars`.  The range of the source ends before `srcEnd`. -/
def getChars (string : JString) (srcBegin srcEnd : Int) (dst : JString) (dstBegin : Int) :
    Option JString :=
  if 0 ≤ srcBegin ∧ srcBegin ≤ srcEnd ∧ srcEnd ≤ string.length ∧ 0 ≤ dstBegin ∧
      dstBegin + (srcEnd - srcBegin) ≤ dst.length then
    some (replaceFrom dst dstBegin (slice string srcBegin (srcEnd - srcBegin)))
  else none

/-- `System.arraycopy`. -/
def arraycopy (src : JString) (srcPos : Int) (dest : JString) (destPos count : Int) :
    Option JString :=
  if 0 ≤ srcPos ∧ 0 ≤ destPos ∧ 0 ≤ count ∧ srcPos + count ≤ src.length ∧
      destPos + count ≤ dest.length then
    some (replaceFrom dest destPos (slice src srcPos count))
  else none

/-- `buffer[index] = ch`. -/
def store (buffer : JString) (index : Int) (ch : UInt16) : Option JString :=
  if 0 ≤ index ∧ index < buffer.length then some (buffer.set index.toNat ch) else none

/-- `chars.charAt(index)`, where a bad index throws. -/
def charAt (chars : JString) (index : Int) : Option UInt16 :=
  if 0 ≤ index then chars[index.toNat]? else none

namespace MutableUrl

/-! ## The methods -/

def maxArrayLength : Int := 2 ^ 31 - 1 - 32

def minGrowCount : Int := 10

/-- The `float` nearest to a natural number: 24 significant bits, halves to even. -/
def roundToFloat (n : Nat) : Nat :=
  let unit := 2 ^ (n.log2 - 23)
  let half := 2 * (n % unit)
  (if unit < half ∨ unit = half ∧ n / unit % 2 = 1 then n / unit + 1 else n / unit) * unit

/-- `(long) ((long) currentBufferLength * GROWTH_RATIO)`, the ratio being `1.5f`. -/
def growthProduct (currentBufferLength : Nat) : Int :=
  (roundToFloat (3 * roundToFloat currentBufferLength) / 2 : Nat)

/-- `grow`, where `growBy` is the product of the length and the ratio. -/
def grow (growBy currentBufferLength elementsCount expectedAdditions : Int) :
    Except UrlException Int :=
  let growBy := min (max growBy minGrowCount) maxArrayLength
  let growTo := min maxArrayLength (growBy + currentBufferLength)
  let newSize := max (elementsCount + expectedAdditions) growTo
  if maxArrayLength < newSize then .error .arraySizeExceeded else .ok newSize

def ensureBufferSpace (expectedAdditions : Int) (url : MutableUrl) :
    Except UrlException MutableUrl :=
  if url.buffer.length < toInt32 (url.length + expectedAdditions) then
    match grow (growthProduct url.buffer.length) url.buffer.length url.length expectedAdditions with
    | .error e => .error e
    | .ok newSize => .ok { url with buffer := copyOf url.buffer newSize }
  else .ok url

/-- `ensureBufferSpace`, and the rest of a method. -/
def withSpace (expectedAdditions : Int) (url : MutableUrl)
    (rest : MutableUrl → MutableUrl × Option UrlException) : MutableUrl × Option UrlException :=
  match url.ensureBufferSpace expectedAdditions with
  | .error e => (url, some e)
  | .ok url => rest url

/-- A method ends with a new array, or with an exception if a copy has failed. -/
def copied (count : Int) (url : MutableUrl) : Option JString → MutableUrl × Option UrlException
  | some buffer => (⟨buffer, toInt32 (url.length + count)⟩, none)
  | none => (url, some .indexOutOfBounds)

/-- `append(char)`.  The length counts up before the store is tried. -/
def appendChar (ch : UInt16) (url : MutableUrl) : MutableUrl × Option UrlException :=
  url.withSpace 1 fun url =>
    match store url.buffer url.length ch with
    | some buffer => (⟨buffer, toInt32 (url.length + 1)⟩, none)
    | none => ({ url with length := toInt32 (url.length + 1) }, some .indexOutOfBounds)

/-- `append(String, int, int)`. -/
def appendString (string : JString) (off count : Int) (url : MutableUrl) :
    MutableUrl × Option UrlException :=
  url.withSpace count fun url =>
    -- `count` is passed as the end of the range
    url.copied count (getChars string off count url.buffer url.length)

/-- The loop of `append(CharSequence, int, int)`, with `remaining` rounds to go.  An
index that leaves the range of `int` is out of bounds either way. -/
def copyChars (chars : JString) (off : Int) (length : Int) :
    Nat → Int → JString → JString × Option UrlException
  | 0, _, buffer => (buffer, none)
  | remaining + 1, i, buffer =>
      match charAt chars (off + i) with
      | none => (buffer, some .indexOutOfBounds)
      | some ch =>
          match store buffer (length + i) ch with
          | none => (buffer, some .indexOutOfBounds)
          | some buffer => copyChars chars off length remaining (i + 1) buffer

/-- `append(CharSequence, int, int)`. -/
def appendCharSequence (chars : JString) (off count : Int) (url : MutableUrl) :
    MutableUrl × Option UrlException :=
  url.withSpace count fun url =>
    match copyChars chars off url.length count.toNat 0 url.buffer with
    | (buffer, none) => (⟨buffer, toInt32 (url.length + count)⟩, none)
    | (buffer, some e) => ({ url with buffer }, some e)

/-- `append(char[], int, int)`. -/
def appendArray (array : JString) (off count : Int) (url : MutableUrl) :
    MutableUrl × Option UrlException :=
  url.withSpace count fun url =>
    url.copied count (arraycopy array off url.buffer url.length count)

def setLength (newLength : Int) (url : MutableUrl) : MutableUrl × Option UrlException :=
  if newLength < 0 then (url, some .indexOutOfBounds)
  else if url.buffer.length < newLength then (⟨copyOf url.buffer newLength, newLength⟩, none)
  else if newLength < url.length then
    -- `Arrays.fill(buffer, newLength, length, '\0')`
    (⟨replaceFrom url.buffer newLength (List.replicate (url.length - newLength).toNat 0), newLength⟩,
      none)
  else ({ url with length := newLength }, none)

def clear (url : MutableUrl) : MutableUrl × Option UrlException := url.setLength 0

def release (_ : MutableUrl) : MutableUrl × Option UrlException := (⟨[], 0⟩, none)

/-- `toString`: `new String(buffer, 0, length)` throws if the array is too short. -/
def toString (url : MutableUrl) : Option JString :=
  if 0 ≤ url.length ∧ url.length ≤ url.buffer.length then some (url.buffer.take url.length.toNat)
  else none

end MutableUrl

/-- A call of one of the methods. -/
inductive UrlCall
  | appendChar (ch : UInt16)
  | appendString (string : JString) (off count : Int)
  | appendCharSequence (chars : JString) (off count : Int)
  | appendArray (array : JString) (off count : Int)
  | setLength (newLength : Int)
  | clear
  | release

def UrlCall.run : UrlCall → MutableUrl → MutableUrl × Option UrlException
  | .appendChar ch => MutableUrl.appendChar ch
  | .appendString string off count => MutableUrl.appendString string off count
  | .appendCharSequence chars off count => MutableUrl.appendCharSequence chars off count
  | .appendArray array off count => MutableUrl.appendArray array off count
  | .setLength newLength => MutableUrl.setLength newLength
  | .clear => MutableUrl.clear
  | .release => MutableUrl.release

/-- What a call does to a string. -/
def UrlCall.spec : UrlCall → JString → JString
  | .appendChar ch, text => text ++ [ch]
  | .appendString chars off count, text | .appendCharSequence chars off count, text
  | .appendArray chars off count, text => text ++ slice chars off count
  | .setLength newLength, text =>
      text.take newLength.toNat ++ List.replicate (newLength.toNat - text.length) 0
  | .clear, _ | .release, _ => []

/-- The arguments name a range of the source, or a length. -/
def UrlCall.NamesRange : UrlCall → Prop
  | .appendString chars off count | .appendCharSequence chars off count
  | .appendArray chars off count => 0 ≤ off ∧ 0 ≤ count ∧ off + count ≤ chars.length
  | .setLength newLength => 0 ≤ newLength
  | .appendChar _ | .clear | .release => True

instance UrlCall.decidableNamesRange : (call : UrlCall) → Decidable call.NamesRange
  | .appendString .. | .appendCharSequence .. | .appendArray .. =>
      inferInstanceAs (Decidable (_ ∧ _ ∧ _))
  | .setLength newLength => inferInstanceAs (Decidable (0 ≤ newLength))
  | .appendChar _ | .clear | .release => inferInstanceAs (Decidable True)

/-- The arguments are in range, and the string does not get too long. -/
def UrlCall.InRange (call : UrlCall) (text : JString) : Prop :=
  call.NamesRange ∧ ((call.spec text).length : Int) < MutableUrl.maxArrayLength

instance UrlCall.decidableInRange (call : UrlCall) (text : JString) : Decidable (call.InRange text) :=
  inferInstanceAs (Decidable (_ ∧ _))

end Chttpc
