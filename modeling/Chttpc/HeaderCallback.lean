import Chttpc.CurlData
import Mathlib.Data.List.DropRight

/-!
# Receiving one header line: `header_callback`

libcurl hands the lines of a response head over one at a time.  The callback
scans for the first colon.  A line without one that ends in CRLF is special: it
is a status line if it starts with `HTTP/`, and the end of the head otherwise.
Every other line is split at the colon, its two parts are trimmed and copied
into a new block, the map is told about the block, and a pair of pointers is
written at the end of `headerPairs`.

The range the value is taken from reaches one byte behind the line
(`valEnd = valStart + bufferLength - i`), so a `HeaderLine` carries the memory
around its bytes as well.  A status line writes its pair over slot 0: the count
is zeroed for the write and restored before it is incremented.  Both are kept.

The three theorems at the end, one for each kind of line, say what a call does;
nothing after this module unfolds the callback.
-/

namespace Chttpc

/-- What one call of `header_callback` is given: the line, the memory around it,
the bytes that will lie behind the copied name, and which of the allocations
that are checked succeed. -/
structure HeaderLine where
  bytes : List UInt8
  outside : Int → UInt8
  beyond : Nat → UInt8
  entryOk : Bool
  callocOk : Bool
  reallocOk : Bool

/-- The bytes of an ASCII text. -/
def ascii (text : String) : List UInt8 := text.toList.map fun c => UInt8.ofNat c.toNat

/-- The text a pointer shows: everything up to the first NUL. -/
def cString (text : List UInt8) : List UInt8 := text.takeWhile (· != 0)

theorem cString_eq_self_iff {text : List UInt8} : cString text = text ↔ 0 ∉ text := by
  rw [cString, List.takeWhile_eq_self_iff]
  constructor
  · intro h hmem
    simpa using h 0 hmem
  · intro h x hx
    have hne : x ≠ 0 := fun he => h (he ▸ hx)
    simpa using hne

theorem cString_cString (text : List UInt8) : cString (cString text) = cString text :=
  List.takeWhile_idem

theorem nul_notMem_cString (text : List UInt8) : 0 ∉ cString text :=
  cString_eq_self_iff.mp (cString_cString text)

theorem cString_cons {c : UInt8} (h : c ≠ 0) (text : List UInt8) :
    cString (c :: text) = c :: cString text :=
  List.takeWhile_cons_of_pos (by simpa using h)

theorem cString_append {a : List UInt8} (h : 0 ∉ a) (b : List UInt8) :
    cString (a ++ b) = a ++ cString b := by
  induction a with
  | nil => rfl
  | cons c a ih =>
    rw [List.mem_cons, not_or] at h
    rw [List.cons_append, cString_cons (Ne.symm h.1), ih h.2, List.cons_append]

theorem cString_append_of_mem {a : List UInt8} (h : 0 ∈ a) (b : List UInt8) :
    cString (a ++ b) = cString a := by
  induction a with
  | nil => cases h
  | cons c a ih =>
    by_cases hc : c = 0
    · rw [hc]
      rfl
    · rw [List.cons_append, cString_cons hc, cString_cons hc,
        ih ((List.mem_cons.mp h).resolve_left (Ne.symm hc))]

/-- The bytes `wsp_trim_end` removes. -/
def trimmedAtEnd (c : UInt8) : Bool := c == 0 || c == 32 || c == 13 || c == 10

def wspTrimStart (text : List UInt8) : List UInt8 := text.dropWhile (· == 32)

def wspTrimEnd (text : List UInt8) : List UInt8 := text.rdropWhile trimmedAtEnd

def wspTrim (text : List UInt8) : List UInt8 := wspTrimEnd (wspTrimStart text)

namespace HeaderLine

/-- A line in a zeroed buffer, with every allocation succeeding. -/
def ofBytes (bytes : List UInt8) : HeaderLine :=
  ⟨bytes, fun _ => 0, fun _ => 0, true, true, true⟩

variable (line : HeaderLine)

def bufferLength : Nat := line.bytes.length

/-- `buffer[i]`, inside the line or around it. -/
def byte (i : Int) : UInt8 :=
  if i < 0 then line.outside i else line.bytes.getD i.toNat (line.outside i)

/-- The value of `i` after the scan for a colon. -/
def colon : Nat := line.bytes.findIdx (· == 58)

/-- No colon, and CRLF at the end. -/
def isSpecial : Bool :=
  line.colon == line.bufferLength && line.byte (line.bufferLength - 2) == 13 &&
    line.byte (line.bufferLength - 1) == 10

/-- A special line that starts with `HTTP/`. -/
def isStatusLine : Bool :=
  line.isSpecial && decide (5 < line.colon) && line.bytes.take 5 == ascii "HTTP/"

def trimmedKey : List UInt8 := wspTrimEnd (line.bytes.take line.colon)

def trimmedValue : List UInt8 :=
  wspTrim ((List.range (line.bufferLength - line.colon)).map fun k =>
    line.byte (line.colon + 1 + k))

/-- The name as it is read back from the block. -/
def key : List UInt8 := cString line.trimmedKey

/-- The value as it is read back from the block. -/
def value : List UInt8 := cString line.trimmedValue

/-- The pointer to the name in the block with number `block`. -/
def name (block : Nat) : CString := ⟨block + 1, line.key, line.beyond⟩

@[simp] theorem name_addr (block : Nat) : (line.name block).addr = block + 1 := rfl

/-- The allocations the line asks for succeed. -/
def Allocated : Prop := line.entryOk = true ∧ line.reallocOk = true

end HeaderLine

namespace CurlData

/-- A status line after the end of a head starts a new response. -/
def beginResponse (ctrl : CurlData) : CurlData :=
  if ctrl.state.seenHeaderEnd then
    { ({ ctrl with headers := ctrl.headers.hashmapClear }).releaseHeaders with
      state := { ctrl.state with seenHeaderEnd := false } }
  else ctrl

/-- `malloc` of the block and the two copies into it. -/
def copyLine (line : HeaderLine) (ctrl : CurlData) : CurlData :=
  { ctrl with blocks := ctrl.blocks ++ [⟨none, line.value⟩] }

/-- `block->ref = ref`. -/
def setRef (block : Nat) (ref : Option Nat) (ctrl : CurlData) : CurlData :=
  { ctrl with blocks := ctrl.blocks.modify block fun hdr => { hdr with ref } }

/-- `block->ref`. -/
def refOf (ctrl : CurlData) (block : Nat) : Option Nat := ctrl.blocks[block]?.bind (·.ref)

/-- Enters the value `block` under `name` in the map, or appends it to the ring
of the entry found.  The second component is `newHeaderPos`. -/
def storeHeader (line : HeaderLine) (name : CString) (block : Nat) (ctrl : CurlData) :
    CurlData × CString :=
  match ctrl.headers.entryGet name with
  | none =>
      (({ ctrl with
          headers := (ctrl.headers.hashmapPut name line.entryOk line.callocOk block).1 }).setRef
        block (some block), name)
  | some old =>
      match ctrl.headers.entryAt old with
      | none => (ctrl, name)
      | some entry =>
          let existing := entry.value
          let ctrl := ctrl.setRef block (ctrl.refOf existing)
          let ctrl := ctrl.setRef existing (some block)
          ({ ctrl with headers := ctrl.headers.setValue old block }, entry.key)

def noteLength (length : Nat) (ctrl : CurlData) : CurlData :=
  if ctrl.maxHeaderLength < length then { ctrl with maxHeaderLength := toUInt16 length } else ctrl

/-- Writes the pair of pointers behind the last one. -/
def writePair (block : Nat) (name : CString) (ctrl : CurlData) : CurlData :=
  let oldEnd := ctrl.headerPairCount * 2
  { ctrl with
    headerPairs := fun i =>
      if i = oldEnd then some (.value block)
      else if i = oldEnd + 1 then some (.key name)
      else ctrl.headerPairs i }

def setCount (count : Nat) (ctrl : CurlData) : CurlData := { ctrl with headerPairCount := count }

/-- `header_callback` from the label `skip` on. -/
def appendPair (line : HeaderLine) (statusLine : Bool) (oldHeaderCount block : Nat)
    (newHeaderPos : CString) (ctrl : CurlData) : CurlData × Nat :=
  let (ctrl, failed) := ctrl.headersEnsureCapacity line.reallocOk (ctrl.headerPairCount + 1)
  if failed then (ctrl, 0)
  else
    let ctrl := ctrl.writePair block newHeaderPos
    let ctrl := if statusLine then ctrl.setCount oldHeaderCount else ctrl
    (ctrl.setCount (toUInt16 (ctrl.headerPairCount + 1)), line.bufferLength)

/-- `header_callback`; the second component is what it returns to libcurl. -/
def headerCallback (line : HeaderLine) (ctrl : CurlData) : CurlData × Nat :=
  if line.isSpecial then
    if line.isStatusLine then
      let ctrl := ctrl.beginResponse
      let oldHeaderCount := ctrl.headerPairCount
      let ctrl := ctrl.setCount 0
      let block := ctrl.blocks.length
      (ctrl.copyLine line).appendPair line true oldHeaderCount block (line.name block)
    else
      ({ ctrl with state := { ctrl.state with seenHeaderEnd := true } }, line.bufferLength)
  else
    let block := ctrl.blocks.length
    let (ctrl, newHeaderPos) := (ctrl.copyLine line).storeHeader line (line.name block) block
    let ctrl := (ctrl.noteLength line.trimmedKey.length).noteLength line.trimmedValue.length
    ctrl.appendPair line false 0 block newHeaderPos

/-! ## What a call leaves alone -/

/-- The handle without the header store, the error buffer and the pending
exception, unless that is the one for a lock that is taken: what neither a header
line nor another exception touches. -/
def io (ctrl : CurlData) : CurlData :=
  { ctrl with
    env := ctrl.env.threading
    headers := Hashmap.hashmapCreate 32 0 hashCalc hashKeyCompare
    headerPairs := fun _ => none
    headerBufSize := 0
    headerPairCount := 0
    maxHeaderLength := 0
    state := { ctrl.state with seenHeaderEnd := false }
    errorBuffer := []
    blocks := []
    freed := [] }

section Io
variable (ctrl : CurlData)

/-- Errors have been reported, and nothing else: the pending exception and the error buffer
may be others, but the call has not been refused. -/
inductive OnlyReports (ctrl : CurlData) : CurlData → Prop
  | intro (env : JNIEnv) (errorBuffer : List UInt8)
      (threading : env.threading = ctrl.env.threading) :
      OnlyReports ctrl { ctrl with env, errorBuffer }

theorem OnlyReports.refl : ctrl.OnlyReports ctrl := .intro ctrl.env ctrl.errorBuffer rfl

theorem OnlyReports.trans {ctrl ctrl' ctrl'' : CurlData} (h : ctrl.OnlyReports ctrl')
    (h' : ctrl'.OnlyReports ctrl'') : ctrl.OnlyReports ctrl'' := by
  cases h with
  | intro env errorBuffer threading =>
    cases h' with
    | intro env' errorBuffer' threading' => exact .intro env' errorBuffer' (threading'.trans threading)

theorem OnlyReports.io {ctrl ctrl' : CurlData} (h : ctrl.OnlyReports ctrl') : ctrl'.io = ctrl.io := by
  cases h with
  | intro env errorBuffer threading =>
    rw [CurlData.io, CurlData.io]
    dsimp only
    rw [threading]

theorem reports_throw {e : Throwable} (h : e ≠ threadingException) :
    ctrl.OnlyReports { ctrl with env := ctrl.env.throw e } :=
  .intro _ ctrl.errorBuffer (JNIEnv.threading_throw _ h)

theorem reports_throwException {e : ErrorType} (h : e ≠ .useSynchronization)
    (m : Option ErrorText) (arg : Int) : ctrl.OnlyReports (ctrl.throwException e m arg) :=
  ctrl.reports_throw (by simp [threadingException, h])

theorem reports_oomThrow : ctrl.OnlyReports ctrl.oomThrow :=
  ctrl.reports_throwException (by decide) none 0

theorem reports_throwNew (e : ErrorText) : ctrl.OnlyReports (ctrl.throwNew e) :=
  ctrl.reports_throw (by simp [threadingException])

theorem reports_throwTimeout (transferred : Nat) : ctrl.OnlyReports (ctrl.throwTimeout transferred) := by
  refine ctrl.reports_throwException ?_ none 0
  split <;> decide

theorem reports_chompErrorBuffer : ctrl.OnlyReports ctrl.chompErrorBuffer := by
  unfold chompErrorBuffer
  split
  · exact .intro ctrl.env _ rfl
  · exact .refl ctrl

theorem reports_throwEasyError (code : CURLcode) (e : ErrorText) :
    ctrl.OnlyReports (ctrl.throwEasyError code e) := by
  cases code with
  | outOfMemory => exact ctrl.reports_oomThrow
  | ok | abortedByCallback | writeError | other _ => exact ctrl.reports_throwNew e
  | _ => exact ctrl.reports_throwException (by decide) _ 0

theorem reports_handleMultiError (code : CURLMcode) : ctrl.OnlyReports (ctrl.handleMultiError code) := by
  unfold handleMultiError
  dsimp only
  split
  · exact ctrl.reports_chompErrorBuffer
  · split
    · exact ctrl.reports_chompErrorBuffer.trans (reports_oomThrow _)
    · exact ctrl.reports_chompErrorBuffer.trans (reports_throwNew _ _)

theorem reports_handleEasyError (code : CURLcode) : ctrl.OnlyReports (ctrl.handleEasyError code) := by
  unfold handleEasyError
  split
  · exact .refl ctrl
  · dsimp only
    split
    · exact ctrl.reports_chompErrorBuffer
    · exact ctrl.reports_chompErrorBuffer.trans (reports_throwEasyError _ _ _)

theorem io_throw {e : Throwable} (h : e ≠ threadingException) :
    ({ ctrl with env := ctrl.env.throw e } : CurlData).io = ctrl.io := (ctrl.reports_throw h).io

theorem io_throwException {e : ErrorType} (h : e ≠ .useSynchronization) (m : Option ErrorText)
    (arg : Int) : (ctrl.throwException e m arg).io = ctrl.io :=
  (ctrl.reports_throwException h m arg).io

@[simp] theorem io_oomThrow : ctrl.oomThrow.io = ctrl.io := ctrl.reports_oomThrow.io

@[simp] theorem io_throwTimeout (transferred : Nat) :
    (ctrl.throwTimeout transferred).io = ctrl.io := (ctrl.reports_throwTimeout transferred).io

@[simp] theorem io_handleMultiError (code : CURLMcode) :
    (ctrl.handleMultiError code).io = ctrl.io := (ctrl.reports_handleMultiError code).io

@[simp] theorem io_handleEasyError (code : CURLcode) :
    (ctrl.handleEasyError code).io = ctrl.io := (ctrl.reports_handleEasyError code).io

@[simp] theorem io_beginResponse : ctrl.beginResponse.io = ctrl.io := by
  unfold beginResponse
  split <;> rfl

@[simp] theorem io_storeHeader (line : HeaderLine) (name : CString) (block : Nat) :
    (ctrl.storeHeader line name block).1.io = ctrl.io := by
  unfold storeHeader
  split
  · rfl
  · split <;> rfl

@[simp] theorem io_noteLength (length : Nat) : (ctrl.noteLength length).io = ctrl.io := by
  unfold noteLength
  split <;> rfl

@[simp] theorem io_copyLine (line : HeaderLine) : (ctrl.copyLine line).io = ctrl.io := rfl

@[simp] theorem io_setCount (n : Nat) : (ctrl.setCount n).io = ctrl.io := rfl

@[simp] theorem io_writePair (block : Nat) (name : CString) :
    (ctrl.writePair block name).io = ctrl.io := rfl

@[simp] theorem io_headersEnsureCapacity (ok : Bool) (n : Nat) :
    (ctrl.headersEnsureCapacity ok n).1.io = ctrl.io := by
  unfold headersEnsureCapacity
  split
  · rfl
  · dsimp only
    split
    · rfl
    · exact ctrl.io_oomThrow

@[simp] theorem io_appendPair (line : HeaderLine) (statusLine : Bool) (old block : Nat)
    (name : CString) : (ctrl.appendPair line statusLine old block name).1.io = ctrl.io := by
  unfold appendPair
  dsimp only
  split
  · rw [io_headersEnsureCapacity]
  · rw [io_setCount]
    split <;> simp

/-- **A header line changes the header store**, and nothing else but the pending
exception. -/
@[simp] theorem io_headerCallback (line : HeaderLine) :
    (ctrl.headerCallback line).1.io = ctrl.io := by
  unfold headerCallback
  split
  · split
    · simp
    · rfl
  · simp

end Io

/-! ## What a call does -/

section Spec
variable {line : HeaderLine} {ctrl : CurlData}

theorem isSpecial_of_isStatusLine (h : line.isStatusLine = true) : line.isSpecial = true := by
  simp only [HeaderLine.isStatusLine, Bool.and_eq_true] at h
  exact h.1.1

@[simp] theorem beginResponse_blocks : ctrl.beginResponse.blocks = ctrl.blocks := by
  unfold beginResponse
  split <;> rfl

@[simp] theorem beginResponse_headerPairs :
    ctrl.beginResponse.headerPairs = ctrl.headerPairs := by
  unfold beginResponse
  split <;> rfl

@[simp] theorem beginResponse_headerBufSize :
    ctrl.beginResponse.headerBufSize = ctrl.headerBufSize := by
  unfold beginResponse
  split <;> rfl

theorem beginResponse_headerPairCount :
    ctrl.beginResponse.headerPairCount =
      if ctrl.state.seenHeaderEnd then 0 else ctrl.headerPairCount := by
  unfold beginResponse
  split <;> rfl

theorem beginResponse_headers :
    ctrl.beginResponse.headers =
      if ctrl.state.seenHeaderEnd then ctrl.headers.hashmapClear else ctrl.headers := by
  unfold beginResponse
  split <;> rfl

/-- The end of a response head is noted, and nothing is stored. -/
theorem headerCallback_terminator (h : line.isSpecial = true) (hs : line.isStatusLine = false) :
    ctrl.headerCallback line =
      ({ ctrl with state := { ctrl.state with seenHeaderEnd := true } }, line.bufferLength) := by
  simp [headerCallback, h, hs]

theorem headersEnsureCapacity_ok (n : Nat) :
    ctrl.headersEnsureCapacity true n =
      ({ ctrl with
          headerBufSize := if n ≤ ctrl.headerBufSize then ctrl.headerBufSize
            else 3 * n / 2 % 2 ^ 32 }, false) := by
  unfold headersEnsureCapacity
  split <;> simp_all

/-- A status line takes slot 0 of the response it begins, and the count goes up
by one from what it was. -/
theorem headerCallback_statusLine (h : line.isStatusLine = true) (hok : line.reallocOk = true)
    (hsize : 0 < ctrl.headerBufSize) :
    ctrl.headerCallback line =
      ({ ctrl.beginResponse.copyLine line with
          headerPairs := fun i =>
            if i = 0 then some (.value ctrl.blocks.length)
            else if i = 1 then some (.key (line.name ctrl.blocks.length))
            else ctrl.headerPairs i
          headerPairCount := toUInt16 (ctrl.beginResponse.headerPairCount + 1) },
        line.bufferLength) := by
  have hsize' : 1 ≤ ctrl.headerBufSize := hsize
  simp [headerCallback, isSpecial_of_isStatusLine h, h, hok, appendPair, headersEnsureCapacity_ok,
    copyLine, setCount, writePair, hsize']

/-- What a header line leaves behind. -/
structure AfterHeader (line : HeaderLine) (before after : CurlData) : Prop where
  headers : after.headers = ((before.copyLine line).storeHeader line
    (line.name before.blocks.length) before.blocks.length).1.headers
  blocks : after.blocks = ((before.copyLine line).storeHeader line
    (line.name before.blocks.length) before.blocks.length).1.blocks
  headerPairs : after.headerPairs = fun i =>
    if i = before.headerPairCount * 2 then some (.value before.blocks.length)
    else if i = before.headerPairCount * 2 + 1 then
      some (.key ((before.copyLine line).storeHeader line
        (line.name before.blocks.length) before.blocks.length).2)
    else before.headerPairs i
  headerPairCount : after.headerPairCount = toUInt16 (before.headerPairCount + 1)
  headerBufSize : after.headerBufSize =
    if before.headerPairCount + 1 ≤ before.headerBufSize then before.headerBufSize
    else 3 * (before.headerPairCount + 1) / 2 % 2 ^ 32
  state : after.state = before.state

/-- Entering a value changes the map and the blocks only. -/
theorem storeHeader_eq (name : CString) (block : Nat) :
    (ctrl.storeHeader line name block).1 =
      { ctrl with
        headers := (ctrl.storeHeader line name block).1.headers
        blocks := (ctrl.storeHeader line name block).1.blocks } := by
  unfold storeHeader
  split
  · rfl
  · split <;> rfl

theorem noteLength_eq (n : Nat) :
    ctrl.noteLength n =
      { ctrl with
        maxHeaderLength :=
          if ctrl.maxHeaderLength < n then toUInt16 n else ctrl.maxHeaderLength } := by
  unfold noteLength
  split <;> rfl

theorem headerCallback_header (h : line.isSpecial = false) (hok : line.reallocOk = true) :
    AfterHeader line ctrl (ctrl.headerCallback line).1 ∧
      (ctrl.headerCallback line).2 = line.bufferLength := by
  have hcall : ctrl.headerCallback line =
      let stored := (ctrl.copyLine line).storeHeader line (line.name ctrl.blocks.length)
        ctrl.blocks.length
      ((stored.1.noteLength line.trimmedKey.length).noteLength
        line.trimmedValue.length).appendPair line false 0 ctrl.blocks.length stored.2 := by
    simp [headerCallback, h]
  rw [hcall]
  dsimp only
  rw [storeHeader_eq, noteLength_eq, noteLength_eq, appendPair, hok, headersEnsureCapacity_ok]
  exact ⟨⟨rfl, rfl, rfl, rfl, rfl, rfl⟩, rfl⟩

end Spec

end CurlData
end Chttpc
