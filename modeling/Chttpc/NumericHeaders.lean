import Chttpc.CurlConnection
import Chttpc.Timeouts

/-!
# Numeric header fields

`getHeaderFieldLong` and `getHeaderFieldInt` are for headers that hold a number: they answer
with the number, and with the default of the caller when the header is absent or holds
anything else.  What counts as a number is left to `strtoll`; the native method looks at
nothing but whether the text has been used up.

`numeral` says what a number is without asking `strtoll`, and `fieldValue` what the accessors
are for.  `accepted` is what the native method makes of a text, as an `Option`: then the
answer of an accessor and the answer it should give are both of the form `x.getD default`,
and two of those agree for every default only if the options are the same.

Three kinds of text tell the options apart.  An empty one is used up before it is looked at.
A numeral behind white space that `wsp_trim` leaves, such as a tab, is accepted.  A numeral
out of range is clamped by `strtoll`, which reports it in `errno` alone, or narrowed by the
cast to `int`.
-/

namespace Chttpc
open Program

/-! ## Numerals -/

/-- A text without its sign, and the sign as a factor. -/
def signed (str : List UInt8) : Int × List UInt8 :=
  match str with
  | 45 :: rest => (-1, rest)
  | 43 :: rest => (1, rest)
  | _ => (1, str)

/-- The integer that an optionally signed, non-empty decimal numeral denotes. -/
def numeral (str : List UInt8) : Option Int :=
  if (signed str).2 ≠ [] ∧ (signed str).2.all isDigit = true then
    some ((signed str).1 * digitsValue (signed str).2)
  else none

theorem strtoll_eq (str : List UInt8) :
    strtoll str =
      if (signed (str.dropWhile isSpace)).2.takeWhile isDigit = [] then (0, str)
      else
        (clampLongLong ((signed (str.dropWhile isSpace)).1 *
            digitsValue ((signed (str.dropWhile isSpace)).2.takeWhile isDigit)),
          (signed (str.dropWhile isSpace)).2.dropWhile isDigit) := rfl

/-- What the native method takes a text for, if it takes it for a number. -/
def accepted (str : List UInt8) : Option Int :=
  if str = [] then some 0 else (numeral (str.dropWhile isSpace)).map clampLongLong

theorem numeral_nil : numeral [] = none := rfl

/-- A text is used up if there are only digits behind the sign, or if it is empty. -/
theorem strtoll_accepted (str : List UInt8) (default : Int) :
    (if (strtoll str).2 = [] then (strtoll str).1 else default) =
      (accepted str).getD default := by
  rw [strtoll_eq]
  by_cases hnil : str = []
  · rw [hnil]
    rfl
  · simp only [accepted, hnil, if_false]
    generalize str.dropWhile isSpace = number
    by_cases hdigits : (signed number).2.takeWhile isDigit = []
    · -- no conversion: `endptr` points at the beginning
      have hnone : numeral number = none := by
        refine if_neg fun h => ?_
        rw [List.takeWhile_eq_self_iff.mpr (List.all_eq_true.mp h.2)] at hdigits
        exact h.1 hdigits
      simp [hdigits, hnil, hnone]
    · have hne : (signed number).2 ≠ [] := fun h => hdigits (by rw [h]; rfl)
      rw [if_neg hdigits]
      by_cases hall : ∀ c ∈ (signed number).2, isDigit c = true
      · have hsome : numeral number =
            some ((signed number).1 * digitsValue (signed number).2) :=
          if_pos ⟨hne, List.all_eq_true.mpr hall⟩
        simp [hsome, List.dropWhile_eq_nil_iff.mpr hall, List.takeWhile_eq_self_iff.mpr hall]
      · have hnone : numeral number = none := if_neg fun h => hall (List.all_eq_true.mp h.2)
        have hrest : (signed number).2.dropWhile isDigit ≠ [] := fun h =>
          hall (List.dropWhile_eq_nil_iff.mp h)
        simp [hnone, hrest]

/-! ## Ranges -/

/-- The number is a `long`. -/
def FitsLong (n : Int) : Prop := -2 ^ 63 ≤ n ∧ n < 2 ^ 63
  deriving Decidable

/-- The number is an `int`. -/
def FitsInt (n : Int) : Prop := -2 ^ 31 ≤ n ∧ n < 2 ^ 31
  deriving Decidable

theorem FitsInt.fitsLong {n : Int} (h : FitsInt n) : FitsLong n := by
  unfold FitsInt at h
  unfold FitsLong
  omega

theorem clampLongLong_of_fits {n : Int} (h : FitsLong n) : clampLongLong n = n := by
  unfold FitsLong at h
  unfold clampLongLong
  omega

theorem toInt32_of_fits {n : Int} (h : FitsInt n) : toInt32 n = n := toInt32_of_bounds h.1 h.2

/-- Two optional answers agree for every default only if they are the same. -/
theorem getD_agree_iff (ok : Int → Prop) {x y : Option Int} (h0 : ok 0) (h1 : ok 1) :
    (∀ default, ok default → x.getD default = y.getD default) ↔ x = y := by
  constructor
  · intro h
    have hzero := h 0 h0
    have hone := h 1 h1
    cases x <;> cases y <;> simp only [Option.getD_some, Option.getD_none] at hzero hone
    · rfl
    · omega
    · omega
    · rw [hzero]
  · rintro rfl _ _
    rfl

/-! ## What a header holds -/

/-- What a numeric accessor is for: the number that the header holds, if it holds one and
the number is in range, and the default otherwise. -/
def fieldValue (fits : Int → Prop) [DecidablePred fits] (header : Option (List UInt8))
    (default : Int) : Int :=
  ((header.bind numeral).filter fits).getD default

/-- The header, if there is one, is not empty, and if there is a numeral in it, the numeral
begins the text and is in range. -/
def Plain (fits : Int → Prop) (header : Option (List UInt8)) : Prop :=
  ∀ s, header = some s → s ≠ [] ∧
    ∀ n, numeral (s.dropWhile isSpace) = some n → s.dropWhile isSpace = s ∧ fits n

theorem isDigit_of_isSpace {c : UInt8} (h : isSpace c = true) : isDigit c = false := by
  unfold isSpace at h
  unfold isDigit
  grind

/-- White space is no part of a numeral. -/
theorem numeral_of_dropWhile_ne {s : List UInt8} (h : s.dropWhile isSpace ≠ s) :
    numeral s = none := by
  cases s with
  | nil => exact absurd rfl h
  | cons c rest =>
    have hspace : isSpace c = true := by
      by_contra hc
      exact h (List.dropWhile_cons_of_neg hc)
    have hsigned : signed (c :: rest) = (1, c :: rest) := by
      unfold signed
      split
      · rename_i heq
        rw [(List.cons.inj heq).1] at hspace
        exact absurd hspace (by decide)
      · rename_i heq
        rw [(List.cons.inj heq).1] at hspace
        exact absurd hspace (by decide)
      · rfl
    refine if_neg fun hall => ?_
    rw [hsigned] at hall
    have hdigit := List.all_eq_true.mp hall.2 c List.mem_cons_self
    rw [isDigit_of_isSpace hspace] at hdigit
    cases hdigit

/-- `narrow` stands for what happens to a number on the way to the caller. -/
theorem accepted_eq_iff {fits : Int → Prop} [DecidablePred fits] {narrow : Int → Int}
    (hnarrow : ∀ n, fits n → narrow n = n) (header : Option (List UInt8)) :
    (header.bind fun s =>
        if s = [] then some 0 else (numeral (s.dropWhile isSpace)).map narrow) =
      (header.bind numeral).filter fits ↔ Plain fits header := by
  cases header with
  | none => exact ⟨fun _ s hs => (nomatch hs), fun _ => rfl⟩
  | some s =>
    have hplain : Plain fits (some s) ↔ s ≠ [] ∧
        ∀ n, numeral (s.dropWhile isSpace) = some n → s.dropWhile isSpace = s ∧ fits n := by
      constructor
      · exact fun h => h s rfl
      · rintro h t ⟨⟩
        exact h
    rw [hplain]
    by_cases hnil : s = []
    · subst hnil
      simp [numeral_nil]
    · simp only [Option.bind_some, ne_eq, hnil, not_false_eq_true, true_and]
      by_cases hspace : s.dropWhile isSpace = s
      · rw [hspace]
        cases numeral s with
        | none => simp
        | some n =>
          by_cases hn : fits n <;> simp [Option.filter, hn, hnarrow]
      · rw [numeral_of_dropWhile_ne hspace]
        cases numeral (s.dropWhile isSpace) with
        | none => simp
        | some n => simp [hspace]

/-! ## The accessors -/

namespace CurlConnection
variable {equals : JString → JString → Bool} {H : HdrMap equals}

def getHeaderFieldInt (name : JString) (default : Int) (beyond : Nat → UInt8) : Java H Int := do
  let n ← getHeaderFieldLong name default beyond
  pure (toInt32 n)

/-- The header that is stored under a name. -/
def storedHeader (conn : CurlConnection H) (name : JString) (beyond : Nat → UInt8) :
    Option (List UInt8) :=
  conn.native.ctrl.getHeader (some name) name.length beyond

/-- `getHeaderFieldLong` does what it is for, whatever the default. -/
def AnswersLong (conn : CurlConnection H) (name : JString) (beyond : Nat → UInt8) : Prop :=
  ∀ default, FitsLong default → (getHeaderFieldLong name default beyond conn).2 =
    some (.ok (fieldValue FitsLong (conn.storedHeader name beyond) default))

/-- `getHeaderFieldInt` does what it is for, whatever the default. -/
def AnswersInt (conn : CurlConnection H) (name : JString) (beyond : Nat → UInt8) : Prop :=
  ∀ default, FitsInt default → (getHeaderFieldInt name default beyond conn).2 =
    some (.ok (fieldValue FitsInt (conn.storedHeader name beyond) default))

section Accessors
variable {conn : CurlConnection H} {name : JString} {beyond : Nat → UInt8}

/-- What the native method answers. -/
theorem intHeader_eq (conn : CurlConnection H) (name : JString) (default : Int)
    (beyond : Nat → UInt8) :
    conn.native.ctrl.intHeader 0 default (some name) name.length beyond =
      ((conn.storedHeader name beyond).bind accepted).getD default := by
  unfold storedHeader CurlData.intHeader
  cases conn.native.ctrl.getHeader (some name) name.length beyond with
  | none => rfl
  | some s => exact strtoll_accepted s default

/-- A native method that leaves no exception pending. -/
theorem callNative_ok {method : Program Transfer Returned} {t : Transfer} {returned : Returned}
    (h : method conn.native = (t, some returned)) (hpending : t.ctrl.env.pending = none) :
    callNative method conn = ({ conn with native := t }, some (.ok returned)) := by
  have hlift : (Throws.lift (onHandle method) : Java H Returned) conn =
      ({ conn with native := t }, some (.ok returned)) := by
    simp only [Throws.lift, onHandle, h, Option.map_some]
  have hread : (Throws.read (·.native.ctrl.env.pending) : Java H _) { conn with native := t } =
      ({ conn with native := t }, some (.ok none)) := by
    show (_, some (Except.ok t.ctrl.env.pending)) = _
    rw [hpending]
  rw [callNative, Throws.bind_ok hlift, Throws.bind_ok hread]
  rfl

/-- A connection that is connected answers, if no other call is using its handle. -/
theorem getHeaderFieldLong_eq (hconnected : conn.connected = true)
    (hfree : conn.native.ctrl.busy = false) (name : JString) (default : Int)
    (beyond : Nat → UInt8) :
    ∃ conn', getHeaderFieldLong name default beyond conn =
      (conn', some (.ok (((conn.storedHeader name beyond).bind accepted).getD default))) := by
  rw [← intHeader_eq]
  have hassert : (assertConnected : Java H Unit) conn = (conn, some (.ok ())) := by
    show (if conn.connected = true then _ else _ : Java H Unit) conn = _
    rw [if_pos hconnected]
    rfl
  have hnative : Transfer.intHeader 0 default (some name) name.length beyond conn.native =
      ({ conn.native with ctrl := { conn.native.ctrl with env := ⟨none⟩, busy := false } },
        some (.int (conn.native.ctrl.intHeader 0 default (some name) name.length beyond))) := by
    rw [Transfer.intHeader, Transfer.locked, Transfer.acquire_free hfree]
    rfl
  rw [getHeaderFieldLong, Throws.bind_ok hassert, Throws.bind_ok (callNative_ok hnative rfl)]
  exact ⟨_, rfl⟩

theorem answersLong_iff (hconnected : conn.connected = true)
    (hfree : conn.native.ctrl.busy = false) :
    conn.AnswersLong name beyond ↔ Plain FitsLong (conn.storedHeader name beyond) := by
  have hlong (default : Int) : (getHeaderFieldLong name default beyond conn).2 =
      some (.ok (((conn.storedHeader name beyond).bind accepted).getD default)) := by
    obtain ⟨conn', h⟩ := getHeaderFieldLong_eq hconnected hfree name default beyond
    rw [h]
  simp only [AnswersLong, hlong, fieldValue, Option.some.injEq, Except.ok.injEq]
  rw [getD_agree_iff FitsLong (by decide) (by decide)]
  exact accepted_eq_iff (fun _ => clampLongLong_of_fits) _

/-- The default that a caller of `getHeaderFieldInt` gives survives the cast. -/
theorem answersInt_iff (hconnected : conn.connected = true)
    (hfree : conn.native.ctrl.busy = false) :
    conn.AnswersInt name beyond ↔ Plain FitsInt (conn.storedHeader name beyond) := by
  have hint (default : Int) : (getHeaderFieldInt name default beyond conn).2 =
      some (.ok (toInt32 (((conn.storedHeader name beyond).bind accepted).getD default))) := by
    obtain ⟨conn', h⟩ := getHeaderFieldLong_eq hconnected hfree name default beyond
    rw [getHeaderFieldInt, Throws.bind_ok h]
    rfl
  have hcast (default : Int) (hd : FitsInt default) :
      toInt32 (((conn.storedHeader name beyond).bind accepted).getD default) =
        (((conn.storedHeader name beyond).bind accepted).map toInt32).getD default := by
    cases (conn.storedHeader name beyond).bind accepted with
    | none => exact toInt32_of_fits hd
    | some n => rfl
  have hnarrow (n : Int) (hn : FitsInt n) : toInt32 (clampLongLong n) = n := by
    rw [clampLongLong_of_fits hn.fitsLong, toInt32_of_fits hn]
  have hmap : ((conn.storedHeader name beyond).bind accepted).map toInt32 =
      (conn.storedHeader name beyond).bind fun s => if s = [] then some 0 else
        (numeral (s.dropWhile isSpace)).map fun n => toInt32 (clampLongLong n) := by
    cases conn.storedHeader name beyond with
    | none => rfl
    | some s =>
      by_cases hnil : s = []
      · rw [hnil]
        rfl
      · simp [accepted, hnil, Function.comp_def]
  rw [← accepted_eq_iff hnarrow, ← hmap, ← getD_agree_iff FitsInt (by decide) (by decide)]
  simp only [AnswersInt, hint, fieldValue, Option.some.injEq, Except.ok.injEq]
  exact forall₂_congr fun default hd => by rw [hcast default hd]

end Accessors

/-- **When the numeric accessors answer with the number.**  For a connection that is
connected, and whose handle no other call is using, and any name: `getHeaderFieldLong`
answers with the number that the header holds, or else with the default, whatever the
default, exactly if the header, when there is one, is not empty and any numeral in it begins
the text and is a `long`; `getHeaderFieldInt` exactly if it is an `int`. -/
theorem numeric_headers_iff (conn : CurlConnection H) (hconnected : conn.connected = true)
    (hfree : conn.native.ctrl.busy = false) (name : JString) (beyond : Nat → UInt8) :
    (conn.AnswersLong name beyond ↔ Plain FitsLong (conn.storedHeader name beyond)) ∧
      (conn.AnswersInt name beyond ↔ Plain FitsInt (conn.storedHeader name beyond)) :=
  ⟨answersLong_iff hconnected hfree, answersInt_iff hconnected hfree⟩

/-- A response with an empty header `a`, a header `b` that is a `long` and no `int`, and a
header `c` that is no `long`. -/
def numbersCtrl : CurlData := nativeCreate.receive
  [.ofBytes (ascii "HTTP/1.1 200 OK\r\n"), .ofBytes (ascii "a:\r\n"),
    .ofBytes (ascii "b:4294967297\r\n"), .ofBytes (ascii "c:9223372036854775808\r\n")]

/-- A connection that has received it. -/
def numbersConn : CurlConnection (listMap fun a b => a == b) :=
  { CurlConnection.new 19 { freshHandle with ctrl := numbersCtrl } with connected := true }

theorem numeric_headers_numbersConn :
    (numbersConn.connected = true ∧ numbersConn.native.ctrl.busy = false) ∧
      (numbersConn.AnswersLong [98] (fun _ => 0) ↔
          Plain FitsLong (numbersConn.storedHeader [98] fun _ => 0)) ∧
        (numbersConn.AnswersInt [98] (fun _ => 0) ↔
          Plain FitsInt (numbersConn.storedHeader [98] fun _ => 0)) :=
  ⟨⟨rfl, rfl⟩, numeric_headers_iff numbersConn rfl rfl [98] fun _ => 0⟩

/-- The empty header is taken for 0, the number that is no `long` for the greatest one, and
the number that is no `int` for what is left of it. -/
theorem not_numeric_headers :
    ¬ numbersConn.AnswersLong [97] (fun _ => 0) ∧ ¬ numbersConn.AnswersLong [99] (fun _ => 0) ∧
      ¬ numbersConn.AnswersInt [98] (fun _ => 0) := by
  have hempty : (numbersConn.storedHeader [97] fun _ => 0) = some [] := by decide +kernel
  have hint : (numbersConn.storedHeader [98] fun _ => 0) = some (ascii "4294967297") := by
    decide +kernel
  have hlong : (numbersConn.storedHeader [99] fun _ => 0) =
      some (ascii "9223372036854775808") := by
    decide +kernel
  refine ⟨fun h => ?_, fun h => ?_, fun h => ?_⟩
  · exact ((answersLong_iff rfl rfl).mp h _ hempty).1 rfl
  · exact absurd (((answersLong_iff rfl rfl).mp h _ hlong).2 9223372036854775808
      (by decide +kernel)).2 (by decide)
  · exact absurd (((answersInt_iff rfl rfl).mp h _ hint).2 4294967297
      (by decide +kernel)).2 (by decide)

end CurlConnection
end Chttpc
