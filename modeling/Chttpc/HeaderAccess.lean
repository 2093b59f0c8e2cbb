import Chttpc.HeaderCallback

/-!
# Reading response headers: `getHeader`, `header` and `intHeader`

A header is asked for by name or by number.  By name, the characters of the Java
string are narrowed to bytes, copied to the stack and looked up in the map.  By
number, a positive one reads the value of a pair and a negative one, or zero,
the name.  What is found is handed back as a Java string or as a number.

`Platform` is what the C code takes from its surroundings: whether `char` is
signed, which decides how a byte beyond ASCII becomes a UTF-16 unit, and the
conversion `NewStringUTF` applies to long texts.
-/

namespace Chttpc

/-- A Java string, by its UTF-16 units. -/
abbrev JString := List UInt16

structure Platform where
  signedChar : Bool
  newStringUTF : List UInt8 → JString
  /-- The bits of a `size_t`, which has room for an `int`. -/
  sizeBits : Nat
  int_le : 32 ≤ sizeBits

/-- A platform of 32 bits with unsigned characters and no multi-byte texts. -/
def latinPlatform : Platform := ⟨false, fun text => text.map (·.toUInt16), 32, Nat.le_refl 32⟩

/-- Conversion to `size_t`. -/
def Platform.toSizeT (platform : Platform) (n : Int) : Nat := (n % 2 ^ platform.sizeBits).toNat

theorem Platform.toSizeT_eq (platform : Platform) {n : Nat} (h : n < 2 ^ platform.sizeBits) :
    platform.toSizeT n = n := by
  have hmod : n % 2 ^ platform.sizeBits = n := Nat.mod_eq_of_lt h
  unfold toSizeT
  exact_mod_cast hmod

theorem Platform.toSizeT_of_int (platform : Platform) {n : Nat} (h : n < 2 ^ 31) :
    platform.toSizeT n = n :=
  platform.toSizeT_eq (h.trans (Nat.pow_lt_pow_right (by decide) platform.int_le))

def MAX_LOCAL_ALLOC : Nat := 1024 * 8

/-- `(jchar) str[p]`. -/
def Platform.jchar (platform : Platform) (c : UInt8) : UInt16 :=
  if platform.signedChar ∧ 128 ≤ c then c.toUInt16 ||| 0xff00 else c.toUInt16

theorem jchar_ascii (platform : Platform) {text : List UInt8} (h : ∀ c ∈ text, c < 128) :
    text.map platform.jchar = text.map (·.toUInt16) := by
  refine List.map_congr_left fun c hc => if_neg fun hsigned => ?_
  exact absurd hsigned.2 (UInt8.not_le.mpr (h c hc))

/-- `headerToString`; `stringOk` says whether `NewString` can allocate. -/
def Platform.headerToString (platform : Platform) (stringOk : Bool) (str : List UInt8) :
    Option JString :=
  if stringOk then some (str.map platform.jchar) else none

/-- The string `header` makes of the text it has found. -/
def Platform.resultString (platform : Platform) (stringOk : Bool) (result : List UInt8) :
    Option JString :=
  if result.length ≤ MAX_LOCAL_ALLOC then platform.headerToString stringOk result
  else if stringOk then some (platform.newStringUTF result) else none

/-! ## `strtoll` -/

/-- `isspace` in the C locale. -/
def isSpace (c : UInt8) : Bool := c == 32 || (9 ≤ c && c ≤ 13)

def isDigit (c : UInt8) : Bool := 48 ≤ c && c ≤ 57

def digitsValue (digits : List UInt8) : Nat :=
  digits.foldl (fun n c => n * 10 + (c.toNat - 48)) 0

/-- The range of `long long`, at whose ends `strtoll` stops. -/
def clampLongLong (n : Int) : Int := max (-2 ^ 63) (min (2 ^ 63 - 1) n)

/-- `strtoll` in base 10: the number and the text `endptr` points at. -/
def strtoll (str : List UInt8) : Int × List UInt8 :=
  let number := str.dropWhile isSpace
  let (sign, number) : Int × List UInt8 :=
    match number with
    | 45 :: rest => (-1, rest)
    | 43 :: rest => (1, rest)
    | _ => (1, number)
  let digits := number.takeWhile isDigit
  if digits = [] then (0, str)
  else (clampLongLong (sign * digitsValue digits), number.dropWhile isDigit)

namespace CurlData

/-- The text behind an element of `headerPairs`. -/
def headerText (ctrl : CurlData) : HeaderPtr → Option (List UInt8)
  | .value block => ctrl.blocks[block]?.map (·.header)
  | .key name => some name.chars

/-- The element of `headerPairs` that `getSpecialHeader` reads, if it reads one:
value, number `n`, goes first, and the name, number `-n`, second. -/
def specialSlot (ctrl : CurlData) (n : Int) : Option Nat :=
  if n ≥ ctrl.headerPairCount then none
  else if 0 < n then some (2 * n).toNat
  else some (-n * 2 + 1).toNat

def getSpecialHeader (ctrl : CurlData) (n : Int) : Option (List UInt8) :=
  (ctrl.specialSlot n).bind fun slot => (ctrl.headerPairs slot).bind ctrl.headerText

/-- The copy of a name on the stack, with the bytes behind it. -/
def localKey (key : JString) (l : Int) (beyond : Nat → UInt8) : CString :=
  ⟨0, cString ((key.take l.toNat).map (·.toUInt8)), beyond⟩

def getHeader (ctrl : CurlData) (key : Option JString) (l : Int) (beyond : Nat → UInt8) :
    Option (List UInt8) :=
  if ctrl.headerPairCount = 0 then none
  else
    match key with
    | some key =>
        (ctrl.headers.hashmapGet (localKey key l beyond)).bind fun found =>
          ctrl.blocks[found]?.map (·.header)
    | none => ctrl.getSpecialHeader l

/-- What `header` returns while it holds the lock. -/
def header (ctrl : CurlData) (platform : Platform) (stringOk : Bool) (key : Option JString)
    (l : Int) (beyond : Nat → UInt8) : Option JString :=
  (ctrl.getHeader key l beyond).bind (platform.resultString stringOk)

/-- What `intHeader` returns while it holds the lock; `responseCode` is the
answer of `curl_easy_getinfo`. -/
def intHeader (ctrl : CurlData) (responseCode defaultValue : Int) (key : Option JString) (l : Int)
    (beyond : Nat → UInt8) : Int :=
  match key with
  | none => if responseCode = 0 then -1 else responseCode
  | some _ =>
      match ctrl.getHeader key l beyond with
      | none => defaultValue
      | some result =>
          let (resultInt, failCheck) := strtoll result
          if failCheck = [] then resultInt else defaultValue

end CurlData
end Chttpc
