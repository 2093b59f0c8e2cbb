import Chttpc.HeaderAccess

/-!
# The request headers: `setHeader`, `addHeader`, `outHeader` and `clearHeaders`

`ctrl->outHeaders` is a `curl_slist`, here the list of what its nodes point at:
the bytes of each allocated text, without the final NUL.  `curl_slist_append`
copies a C string, so what it is given ends at the first NUL.

Java passes the lengths of the key and the value beside them, and `-1` for a
value that is `null`, so the functions take them from the strings.  They are
what the native methods do while they hold the lock; `none` stands for the
dereference of a pointer that is `NULL` because an allocation failed unchecked,
or that points behind a text, from which nothing returns.
-/

namespace Chttpc

/-- The allocations of a call that changes the request headers: of the text, and
of the node of the list. -/
structure HeaderAlloc where
  localBuffer : Bool
  entry : Bool

/-- The narrow copy of a Java string: `localBuffer[p] = (unsigned char) key[p]`. -/
def narrow (str : JString) : List UInt8 := str.map (·.toUInt8)

/-- `tolower` in the C locale. -/
def lowerCase (c : UInt8) : UInt8 := if 65 ≤ c ∧ c ≤ 90 then c + 32 else c

/-- `!strncasecmp(a, b, n)`. -/
def strncasecmpZero (a b : List UInt8) : Nat → Bool
  | 0 => true
  | n + 1 =>
      lowerCase (a.headD 0) == lowerCase (b.headD 0) &&
        (a.headD 0 == 0 || strncasecmpZero a.tail b.tail n)

namespace CurlData

/-- `ctrl->outHeaders = curl_slist_append(ctrl->outHeaders, text)`.  Without
memory the result is `NULL`, and it is assigned all the same. -/
def slistAppend (alloc : HeaderAlloc) (text : List UInt8) (ctrl : CurlData) : CurlData :=
  { ctrl with
    outHeaders := if alloc.entry then ctrl.outHeaders ++ [cString text] else [] }

/-- What the loop of `setHeader` has gone through: the nodes it has left in the
list, the index of the last one that is to take the new text, and the count. -/
structure Scanned where
  kept : List (List UInt8)
  newHeader : Option Nat
  outHeaderCount : Nat

/-- The loop of `setHeader`, at the node `nextHdr`.  A matching node is removed if
there is no value; the head of the list takes the rest of the list with it. -/
def scanHeaders (key : List UInt8) (hasValue : Bool) (scanned : Scanned) :
    List (List UInt8) → Scanned
  | [] => scanned
  | data :: rest =>
      if strncasecmpZero key data key.length then
        if hasValue then
          scanHeaders key hasValue
            { scanned with
              kept := scanned.kept ++ [data], newHeader := some scanned.kept.length } rest
        else if scanned.kept = [] then scanned
        else
          scanHeaders key hasValue
            { scanned with outHeaderCount := toUInt16 (scanned.outHeaderCount + 65535) } rest
      else scanHeaders key hasValue { scanned with kept := scanned.kept ++ [data] } rest

def setHeader (alloc : HeaderAlloc) (key : JString) (value : Option JString) (ctrl : CurlData) :
    Option CurlData :=
  if alloc.localBuffer = false then some ctrl.oomThrow
  else
    let scanned := scanHeaders (narrow key) value.isSome ⟨[], none, ctrl.outHeaderCount⟩
      ctrl.outHeaders
    let ctrl := { ctrl with
      outHeaders := scanned.kept, outHeaderCount := scanned.outHeaderCount }
    match value with
    | none => some (ctrl.slistAppend alloc (narrow key ++ [58]))
    | some value =>
        let sep := if value.length = 0 then 59 else 58
        let localBuffer := narrow key ++ sep :: narrow value
        match scanned.newHeader with
        | some i => some { ctrl with outHeaders := ctrl.outHeaders.set i localBuffer }
        | none =>
            if alloc.entry then
              some { ctrl with
                outHeaders := ctrl.outHeaders ++ [localBuffer]
                outHeaderCount := toUInt16 (ctrl.outHeaderCount + 1) }
            else none

def addHeader (alloc : HeaderAlloc) (key value : JString) (ctrl : CurlData) : CurlData :=
  if MAX_LOCAL_ALLOC ≤ key.length + value.length + 1 ∧ alloc.localBuffer = false then
    ctrl.oomThrow
  else
    let sep := if value.length = 0 then 59 else 58
    let ctrl := ctrl.slistAppend alloc (narrow key ++ sep :: narrow value)
    { ctrl with outHeaderCount := toUInt16 (ctrl.outHeaderCount + 1) }

/-- The loop of `outHeader`: the text it finds for the key.  A text that is cut at the NUL
of a key is equal to it up to there, and then the separator is read behind its end. -/
def findOutHeader (key : List UInt8) : List (List UInt8) → Option (Option (List UInt8))
  | [] => some none
  | data :: rest =>
      if strncasecmpZero key data key.length then
        if data.length < key.length then none
        else if data.getD key.length 0 = 58 ∨ data.getD key.length 0 = 59 then some (some data)
        else findOutHeader key rest
      else findOutHeader key rest

/-- `outHeader`; `stringOk` says whether `NewStringUTF` can allocate. -/
def outHeader (platform : Platform) (alloc : HeaderAlloc) (stringOk : Bool) (key : JString)
    (ctrl : CurlData) : Option (CurlData × Option JString) :=
  if ctrl.outHeaderCount = 0 then some (ctrl, none)
  else if (MAX_LOCAL_ALLOC < key.length ∧ alloc.localBuffer = false) ∨ ctrl.outHeaders = [] then
    none
  else
    match findOutHeader (narrow key) ctrl.outHeaders with
    | none => none
    | some none => some (ctrl, none)
    | some (some data) =>
        if stringOk then
          some (ctrl, some (platform.newStringUTF (cString (data.drop (key.length + 1)))))
        else some ({ ctrl with env := ctrl.env.throw .outOfMemoryError }, none)

def clearHeaders (ctrl : CurlData) : CurlData :=
  { ctrl with outHeaders := [], outHeaderCount := 0 }

/-! ## What these calls leave alone -/

/-- The handle without its request headers, the pending exception and the store
of the response headers. -/
def wire (ctrl : CurlData) : CurlData :=
  { ctrl.io with outHeaders := [], outHeaderCount := 0 }

section Wire
variable {alloc : HeaderAlloc} {key : JString} {ctrl ctrl' : CurlData}

theorem wire_eq_of_io_eq (h : ctrl'.io = ctrl.io) : ctrl'.wire = ctrl.wire := by
  rw [wire, wire, h]

@[simp] theorem wire_slistAppend (text : List UInt8) :
    (ctrl.slistAppend alloc text).wire = ctrl.wire := rfl

theorem wire_setHeader {value : Option JString} (h : ctrl.setHeader alloc key value = some ctrl') :
    ctrl'.wire = ctrl.wire := by
  unfold setHeader at h
  dsimp only at h
  split at h
  · cases h
    exact wire_eq_of_io_eq ctrl.io_oomThrow
  · split at h
    · cases h
      rfl
    · split at h
      · cases h
        rfl
      · split at h
        · cases h
          rfl
        · cases h

@[simp] theorem wire_addHeader (value : JString) :
    (ctrl.addHeader alloc key value).wire = ctrl.wire := by
  unfold addHeader
  split
  · exact wire_eq_of_io_eq ctrl.io_oomThrow
  · rfl

theorem wire_outHeader {platform : Platform} {stringOk : Bool} {result : Option JString}
    (h : ctrl.outHeader platform alloc stringOk key = some (ctrl', result)) :
    ctrl'.wire = ctrl.wire := by
  unfold outHeader at h
  split at h
  · cases h
    rfl
  · split at h
    · cases h
    · split at h
      · cases h
      · cases h
        rfl
      · split at h
        · cases h
          rfl
        · cases h
          exact wire_eq_of_io_eq (ctrl.io_throw (by decide))

@[simp] theorem wire_clearHeaders : ctrl.clearHeaders.wire = ctrl.wire := rfl

end Wire

end CurlData
end Chttpc
