import Chttpc.BodyCallback
import Chttpc.RequestEdits

/-!
# The buffer of a request header

`setHeader` and `addHeader` put a header together in a buffer of `kLen + valLen + 2` bytes: the
name, a separator, the value and a NUL.  Java passes `-1` as the length of a value that is
`null`, and `setHeader` writes the name, the separator and the NUL then as well.  That is one
byte more than the formula counts for that length.

The buffer is modelled with the indices that are written, in or out of bounds, and with the
arithmetic of the sizes in `int`: a sum that does not fit one is undefined, and so is what the
function does with it.  `Filled` is what the writes keep: they go from index 0 upwards, each
one once, so the bytes written say which indices they were written to.
-/

namespace Chttpc

/-- A buffer of the C program: its size, its bytes, and the indices that have been written. -/
structure LocalBuffer where
  size : Nat
  cells : Nat → Option UInt8
  written : List Nat

namespace LocalBuffer

/-- `malloc(size)`. -/
def malloc (size : Nat) : LocalBuffer := ⟨size, fun _ => none, []⟩

/-- `localBuffer[p] = c`. -/
def write (p : Nat) (c : UInt8) (buf : LocalBuffer) : LocalBuffer :=
  { buf with
    cells := fun q => if q = p then some c else buf.cells q
    written := buf.written ++ [p] }

/-- A loop that writes bytes from index `p` on: where it ends, and the buffer. -/
def writeFrom : Nat → List UInt8 → LocalBuffer → Nat × LocalBuffer
  | p, [], buf => (p, buf)
  | p, c :: bytes, buf => writeFrom (p + 1) bytes (buf.write p c)

/-- Every index written is one of the buffer. -/
def InBounds (buf : LocalBuffer) : Prop := ∀ p ∈ buf.written, p < buf.size

/-- There is a NUL in the buffer, and everything before it has been written. -/
def Terminated (buf : LocalBuffer) : Prop :=
  ∃ n < buf.size, buf.cells n = some 0 ∧ ∀ i < n, (buf.cells i).isSome

end LocalBuffer

open LocalBuffer
open CurlData (entryText)

/-- A sum in `int`, which must not overflow. -/
def intSum (a b : Int) : Option Int :=
  if -2 ^ 31 ≤ a + b ∧ a + b < 2 ^ 31 then some (a + b) else none

/-- The length of a value, as `CurlHttp.setHeaderField` passes it. -/
def valLength (value : Option JString) : Int :=
  match value with
  | none => -1
  | some value => value.length

/-- `valLen == 0 ? ';' : ':'`. -/
def separator (valLen : Int) : UInt8 := if valLen = 0 then 59 else 58

/-- `(size_t) (kLen + valLen + 2)`. -/
def bufferSize (platform : Platform) (kLen valLen : Int) : Option Nat :=
  ((intSum kLen valLen).bind (intSum · 2)).map (platform.toSizeT ·)

/-- What `setHeader` writes to its buffer, if `mallocOk` says that there is one; `none` if the
sizes overflow. -/
def setHeaderBuffer (platform : Platform) (mallocOk : Bool) (key : JString)
    (value : Option JString) : Option (Option LocalBuffer) :=
  (bufferSize platform key.length (valLength value)).map fun size =>
    if mallocOk = false then none
    else
      let (p, localBuffer) := writeFrom 0 (narrow key) (malloc size)
      let localBuffer := localBuffer.write p (separator (valLength value))
      let p := p + 1
      match value with
      -- the size has counted a length of -1 for the value
      | none => some (localBuffer.write p 0)
      | some value =>
          let (p, localBuffer) := writeFrom p (narrow value) localBuffer
          some (localBuffer.write p 0)

/-- What `addHeader` writes to its buffer, which is on the stack if it is small. -/
def addHeaderBuffer (platform : Platform) (mallocOk : Bool) (key value : JString) :
    Option (Option LocalBuffer) :=
  ((intSum key.length value.length).bind (intSum · 1)).bind fun needed =>
    (bufferSize platform key.length value.length).map fun size =>
      -- a small buffer comes from `alloca`
      if MAX_LOCAL_ALLOC ≤ needed ∧ mallocOk = false then none
      else
        let (p, localBuffer) := writeFrom 0 (narrow key) (malloc size)
        let localBuffer := localBuffer.write p (separator value.length)
        let (p, localBuffer) := writeFrom (p + 1) (narrow value) localBuffer
        some (localBuffer.write p 0)

/-- The sizes are defined, and the buffer, if there is one, is large enough for what is written
and ends what it holds with a NUL. -/
def LargeEnough (result : Option (Option LocalBuffer)) : Prop :=
  ∃ allocated, result = some allocated ∧ ∀ buf, allocated = some buf → buf.InBounds ∧ buf.Terminated

/-! ## What the writes keep -/

namespace LocalBuffer

/-- The bytes have been written, from index 0 upwards. -/
structure Holding (size : Nat) (bytes : List UInt8) (buf : LocalBuffer) : Prop where
  size_eq : buf.size = size
  written_eq : buf.written = List.range bytes.length
  cells_eq : ∀ i, buf.cells i = bytes[i]?

section Holding
variable {size : Nat} {bytes text : List UInt8} {buf : LocalBuffer}

theorem holding_malloc (size : Nat) : Holding size [] (malloc size) := ⟨rfl, rfl, fun _ => rfl⟩

theorem Holding.write (h : Holding size bytes buf) (c : UInt8) :
    Holding size (bytes ++ [c]) (buf.write bytes.length c) := by
  refine ⟨h.size_eq, ?_, fun i => ?_⟩
  · show buf.written ++ [bytes.length] = _
    rw [h.written_eq, List.length_append, List.length_singleton, List.range_succ]
  · show (if i = bytes.length then some c else buf.cells i) = _
    rw [h.cells_eq]
    by_cases hi : i = bytes.length
    · rw [if_pos hi, hi, List.getElem?_append_right le_rfl, Nat.sub_self]
      rfl
    · rw [if_neg hi]
      rcases Nat.lt_or_gt_of_ne hi with hlt | hgt
      · rw [List.getElem?_append_left hlt]
      · rw [List.getElem?_eq_none (by omega), List.getElem?_eq_none]
        rw [List.length_append, List.length_singleton]
        omega

theorem Holding.writeFrom (more : List UInt8) (h : Holding size bytes buf) :
    (writeFrom bytes.length more buf).1 = bytes.length + more.length ∧
      Holding size (bytes ++ more) (writeFrom bytes.length more buf).2 := by
  induction more generalizing bytes buf with
  | nil => exact ⟨rfl, by rw [List.append_nil]; exact h⟩
  | cons c more ih =>
    obtain ⟨hend, hholding⟩ := ih (h.write c)
    rw [List.length_append, List.length_singleton] at hend hholding
    rw [List.append_cons]
    exact ⟨hend.trans (by rw [List.length_cons]; omega), hholding⟩

/-- The indices are in bounds if there is room for the bytes. -/
theorem Holding.inBounds_iff (h : Holding size bytes buf) : buf.InBounds ↔ bytes.length ≤ size := by
  unfold InBounds
  rw [h.written_eq, h.size_eq]
  constructor
  · intro hall
    by_contra hlt
    exact absurd (hall size (List.mem_range.mpr (by omega))) (Nat.lt_irrefl size)
  · intro hle p hp
    exact Nat.lt_of_lt_of_le (List.mem_range.mp hp) hle

theorem Holding.terminated (h : Holding size (text ++ [0]) buf) (hroom : text.length < size) :
    buf.Terminated := by
  refine ⟨text.length, by rw [h.size_eq]; exact hroom, ?_, fun i hi => ?_⟩
  · rw [h.cells_eq, List.getElem?_append_right le_rfl, Nat.sub_self]
    rfl
  · rw [h.cells_eq, List.getElem?_append_left hi, List.getElem?_eq_getElem hi]
    rfl

end Holding
end LocalBuffer

/-! ## The two functions -/

section Functions
variable {key : JString}

/-- The name and the separator. -/
theorem holding_name (size : Nat) (key : JString) (sep : UInt8) :
    (writeFrom 0 (narrow key) (malloc size)).1 = key.length ∧
      Holding size (narrow key ++ [sep])
        ((writeFrom 0 (narrow key) (malloc size)).2.write key.length sep) := by
  obtain ⟨hend, hname⟩ := (holding_malloc size).writeFrom (narrow key)
  have hlength : (narrow key).length = key.length := List.length_map _
  have hsep := hname.write sep
  rw [List.nil_append, hlength] at hsep
  exact ⟨hend.trans (by rw [hlength, List.length_nil, Nat.zero_add]), hsep⟩

/-- The value and the NUL, behind them. -/
theorem holding_value {size : Nat} {bytes : List UInt8} {buf : LocalBuffer} (value : JString)
    (h : Holding size bytes buf) :
    Holding size (bytes ++ narrow value ++ [0])
      ((writeFrom bytes.length (narrow value) buf).2.write
        (writeFrom bytes.length (narrow value) buf).1 0) := by
  obtain ⟨hend, hvalue⟩ := h.writeFrom (narrow value)
  have hnul := hvalue.write 0
  rw [List.length_append, ← hend] at hnul
  exact hnul

/-- The size is defined if it is an `int`. -/
theorem bufferSize_eq (platform : Platform) {kLen valLen : Int} (hkey : 0 ≤ kLen)
    (hval : -1 ≤ valLen) : bufferSize platform kLen valLen =
      if kLen + valLen + 2 < 2 ^ 31 then some (kLen + valLen + 2).toNat else none := by
  unfold bufferSize intSum
  by_cases hfits : kLen + valLen + 2 < 2 ^ 31
  · have hsize : platform.toSizeT (kLen + valLen + 2) = (kLen + valLen + 2).toNat := by
      have hsum : ((kLen + valLen + 2).toNat : Int) = kLen + valLen + 2 :=
        Int.toNat_of_nonneg (by omega)
      rw [← platform.toSizeT_of_int (n := (kLen + valLen + 2).toNat) (by omega), hsum]
    rw [if_pos (by omega), Option.bind_some, if_pos (by omega), Option.map_some, hsize, if_pos hfits]
  · rw [if_neg hfits]
    by_cases hsum : kLen + valLen < 2 ^ 31
    · rw [if_pos (by omega), Option.bind_some, if_neg (by omega)]
      rfl
    · rw [if_neg (by omega)]
      rfl

/-- The text that is put together: an entry of the list, or that of a stub. -/
def bufferText (key : JString) (value : Option JString) : List UInt8 :=
  narrow key ++ separator (valLength value) :: narrow (value.getD [])

theorem bufferText_some (value : JString) : bufferText key (some value) = entryText key value := by
  unfold bufferText entryText separator valLength
  simp

theorem length_bufferText (value : Option JString) :
    (bufferText key value).length = key.length + 1 + (value.getD []).length := by
  simp [bufferText, narrow, Nat.add_assoc, Nat.add_comm 1]

theorem valLength_ge (value : Option JString) : -1 ≤ valLength value := by
  cases value with
  | none => exact Int.le_refl (-1)
  | some value =>
    show -1 ≤ (value.length : Int)
    omega

/-- The name, the separator, the value and the NUL, one after another. -/
theorem holding_text (size : Nat) (key value : JString) (sep : UInt8) :
    let named := writeFrom 0 (narrow key) (malloc size)
    let valued := writeFrom (named.1 + 1) (narrow value) (named.2.write named.1 sep)
    Holding size (narrow key ++ sep :: narrow value ++ [0]) (valued.2.write valued.1 0) := by
  intro named valued
  obtain ⟨hend, hname⟩ := holding_name size key sep
  have hvalue := holding_value value hname
  have hlength : (narrow key ++ [sep]).length = named.1 + 1 := by
    rw [List.length_append, List.length_singleton, narrow, List.length_map]
    exact congrArg (· + 1) hend.symm
  rw [hlength, ← hend, ← List.append_cons] at hvalue
  exact hvalue

/-- **What `setHeader` writes**: the text and a NUL, whatever the value. -/
theorem exists_setHeaderBuffer (platform : Platform) (value : Option JString)
    (hfits : key.length + valLength value + 2 < 2 ^ 31) :
    ∃ buf, setHeaderBuffer platform true key value = some (some buf) ∧
      Holding (key.length + valLength value + 2).toNat (bufferText key value ++ [0]) buf := by
  have hsize := bufferSize_eq platform (Int.natCast_nonneg key.length) (valLength_ge value)
  rw [if_pos hfits] at hsize
  refine ⟨_, ?_, holding_text _ key (value.getD []) (separator (valLength value))⟩
  rw [setHeaderBuffer, hsize]
  cases value with
  | none => rfl
  | some value => rfl

/-- **What `addHeader` writes**, if there is a buffer. -/
theorem exists_addHeaderBuffer (platform : Platform) (mallocOk : Bool) (value : JString)
    (hfits : (key.length : Int) + value.length + 2 < 2 ^ 31) :
    ∃ allocated, addHeaderBuffer platform mallocOk key value = some allocated ∧
      ∀ buf, allocated = some buf →
        Holding ((key.length : Int) + value.length + 2).toNat (entryText key value ++ [0]) buf := by
  have hsize := bufferSize_eq platform (Int.natCast_nonneg key.length)
    (show -1 ≤ (value.length : Int) by omega)
  have hneeded : (intSum key.length value.length).bind (intSum · 1) =
      some (key.length + value.length + 1 : Int) := by
    unfold intSum
    rw [if_pos (by omega), Option.bind_some, if_pos (by omega)]
  have hsep : separator value.length = if value.length = 0 then 59 else 58 := by simp [separator]
  rw [if_pos hfits] at hsize
  rw [addHeaderBuffer, hneeded, hsize, Option.bind_some, Option.map_some]
  by_cases hnone : (MAX_LOCAL_ALLOC : Int) ≤ key.length + value.length + 1 ∧ mallocOk = false
  · exact ⟨none, by rw [if_pos hnone], nofun⟩
  · rw [if_neg hnone, entryText, ← hsep]
    exact ⟨_, rfl, fun buf hbuf => Option.some.inj hbuf ▸ holding_text _ key value _⟩

/-- A text and its NUL are in bounds if the size is that of both. -/
theorem largeEnough_of_holding {text : List UInt8} {size : Nat} {buf : LocalBuffer}
    (h : Holding size (text ++ [0]) buf) (hsize : text.length < size) :
    buf.InBounds ∧ buf.Terminated := by
  refine ⟨h.inBounds_iff.mpr ?_, h.terminated hsize⟩
  rw [List.length_append, List.length_singleton]
  exact hsize

theorem setHeader_largeEnough_iff (platform : Platform) (mallocOk : Bool) (key : JString)
    (value : Option JString) : LargeEnough (setHeaderBuffer platform mallocOk key value) ↔
      key.length + valLength value + 2 < 2 ^ 31 ∧ (value = none → mallocOk = false) := by
  by_cases hfits : key.length + valLength value + 2 < 2 ^ 31
  swap
  · -- the size overflows
    have hsize := bufferSize_eq platform (Int.natCast_nonneg key.length) (valLength_ge value)
    rw [if_neg hfits] at hsize
    rw [setHeaderBuffer, hsize]
    exact iff_of_false (fun h => nomatch h.choose_spec.1) fun h => hfits h.1
  cases mallocOk with
  | false =>
    have hsize := bufferSize_eq platform (Int.natCast_nonneg key.length) (valLength_ge value)
    rw [if_pos hfits] at hsize
    rw [setHeaderBuffer, hsize]
    exact iff_of_true ⟨none, rfl, nofun⟩ ⟨hfits, fun _ => rfl⟩
  | true =>
    obtain ⟨buf, hbuf, hholding⟩ := exists_setHeaderBuffer platform value hfits
    rw [hbuf]
    cases value with
    | none =>
      -- the text and the NUL are two bytes longer than the name, and the size one
      refine iff_of_false ?_ fun h => absurd (h.2 rfl) (by decide)
      rintro ⟨allocated, hallocated, hlarge⟩
      have hbounds := hholding.inBounds_iff.mp (hlarge buf (Option.some.inj hallocated).symm).1
      rw [List.length_append, length_bufferText] at hbounds
      simp only [valLength, List.length_singleton, Option.getD_none, List.length_nil] at hbounds
      omega
    | some value =>
      refine iff_of_true ⟨some buf, rfl, ?_⟩ ⟨hfits, nofun⟩
      rintro _ ⟨⟩
      refine largeEnough_of_holding hholding ?_
      rw [length_bufferText]
      simp only [valLength, Option.getD_some]
      omega

theorem addHeader_largeEnough_iff (platform : Platform) (mallocOk : Bool) (key value : JString) :
    LargeEnough (addHeaderBuffer platform mallocOk key value) ↔
      (key.length : Int) + value.length + 2 < 2 ^ 31 := by
  by_cases hfits : (key.length : Int) + value.length + 2 < 2 ^ 31
  · obtain ⟨allocated, hresult, hholding⟩ := exists_addHeaderBuffer platform mallocOk value hfits
    refine iff_of_true ⟨allocated, hresult, fun buf hbuf => ?_⟩ hfits
    refine largeEnough_of_holding (hholding buf hbuf) ?_
    rw [← bufferText_some, length_bufferText, Option.getD_some]
    omega
  · refine iff_of_false ?_ hfits
    rintro ⟨allocated, hresult, -⟩
    have hsize := bufferSize_eq platform (Int.natCast_nonneg key.length)
      (show -1 ≤ (value.length : Int) by omega)
    rw [if_neg hfits] at hsize
    rw [addHeaderBuffer, hsize] at hresult
    cases hneeded : (intSum key.length value.length).bind (intSum · 1) with
    | none =>
      rw [hneeded] at hresult
      cases hresult
    | some needed =>
      rw [hneeded] at hresult
      cases hresult

end Functions

/-- **When the buffer of a request header is large enough.**  On any platform, for any name and
any value, and whether or not the allocation succeeds: the sizes are defined, every index that
is written is one of the buffer, and what it holds ends with a NUL, exactly if the lengths of
both and the two bytes add up to an `int`, and, in `setHeader`, there is a value or no buffer. -/
theorem buffers_large_enough_iff (platform : Platform) (mallocOk : Bool) (key : JString) :
    (∀ value : Option JString, LargeEnough (setHeaderBuffer platform mallocOk key value) ↔
      key.length + valLength value + 2 < 2 ^ 31 ∧ (value = none → mallocOk = false)) ∧
    ∀ value : JString, LargeEnough (addHeaderBuffer platform mallocOk key value) ↔
      (key.length : Int) + value.length + 2 < 2 ^ 31 :=
  ⟨setHeader_largeEnough_iff platform mallocOk key, addHeader_largeEnough_iff platform mallocOk key⟩

/-- The name that every new connection sets. -/
def expect : JString := (ascii "Expect").map (·.toUInt16)

/-- Without a value, the NUL is the eighth byte of seven. -/
theorem not_buffers_large_enough :
    (∃ buf, setHeaderBuffer latinPlatform true expect none = some (some buf) ∧
      buf.size = 7 ∧ 7 ∈ buf.written ∧ buf.cells 7 = some 0) ∧
    ¬ LargeEnough (setHeaderBuffer latinPlatform true expect none) := by
  refine ⟨⟨_, rfl, rfl, by decide, by decide⟩, fun h => ?_⟩
  exact absurd (((setHeader_largeEnough_iff _ _ _ _).mp h).2 rfl) (by decide)

end Chttpc
