import Chttpc.HeaderBlocks

/-!
# The bytes `header_callback` reads

`HeaderLine` gives a header line its memory and the result of the parse.  Here the
pointers of the parse are followed one by one, over a memory that may end: a read where
there is nothing faults.  The loops see the text between their two pointers
(`Memory.Shows`), whatever lies around it.

`scan_memory` says that the two agree.  The range the value is taken from ends one byte
behind the line, and the test for CRLF looks two bytes back, so a line with a colon and
a line of one byte are not parsed from their own bytes alone: `dependsOnLine_iff`.
-/

namespace Chttpc

/-- What lies behind `buffer`; a read at `none` is out of bounds. -/
abbrev Memory := Int → Option UInt8

/-- The parts of a line as they are stored, with the lengths they are given. -/
structure Parts where
  keyLen : Nat
  key : List UInt8
  valueLen : Nat
  value : List UInt8
  deriving DecidableEq, Repr

/-- What `header_callback` takes a line for. -/
inductive Scanned
  | endOfHead
  | statusLine (parts : Parts)
  | header (parts : Parts)
  deriving DecidableEq, Repr

namespace Memory
variable (mem : Memory)

/-- The loop that looks for a colon, with `rest` bytes of the line left.  The counter is
an `int`, and to count beyond `INT_MAX` is a fault as well. -/
def scanColon : Nat → Nat → Option Nat
  | 0, i => some i
  | rest + 1, i => do
      let c ← mem i
      if c = 58 then some i
      else if i + 1 < 2 ^ 31 then scanColon rest (i + 1) else none

/-- `wsp_trim_start`, with `n` bytes between the two pointers. -/
def wspTrimStart : Nat → Int → Option (Int × Nat)
  | 0, first => some (first, 0)
  | n + 1, first => do
      let c ← mem first
      if c = 32 then wspTrimStart n (first + 1) else some (first, n + 1)

/-- `wsp_trim_end`, with `n` bytes between the two pointers. -/
def wspTrimEnd (first : Int) : Nat → Option Nat
  | 0 => some 0
  | n + 1 => do
      let c ← mem (first + n)
      if trimmedAtEnd c then wspTrimEnd first n else some (n + 1)

/-- The text `strncpy` copies. -/
def strncpy : Nat → Int → Option (List UInt8)
  | 0, _ => some []
  | n + 1, src => do
      let c ← mem src
      if c = 0 then some []
      else
        let rest ← strncpy n (src + 1)
        some (c :: rest)

/-- The comparison with a text, byte by byte. -/
def startsWith : List UInt8 → Int → Option Bool
  | [], _ => some true
  | c :: text, i => do
      let b ← mem i
      if b = c then startsWith text (i + 1) else some false

/-- The two parts of a line with its first colon at `i`. -/
def parts (bufferLength i : Nat) : Option Parts := do
  let keyLen ← mem.wspTrimEnd 0 i
  let (valStart, n) ← mem.wspTrimStart (bufferLength - i) (i + 1)
  let valueLen ← mem.wspTrimEnd valStart n
  let value ← mem.strncpy valueLen valStart
  let key ← mem.strncpy keyLen 0
  some ⟨keyLen, key, valueLen, value⟩

/-- `i == bufferLength`, and CRLF at the end. -/
def special (bufferLength i : Nat) : Option Bool :=
  if i = bufferLength then do
    let cr ← mem (bufferLength - 2)
    if cr = 13 then
      let lf ← mem (bufferLength - 1)
      some (lf == 10)
    else some false
  else some false

/-- `i > 5`, and `HTTP/` at the beginning. -/
def http (i : Nat) : Option Bool :=
  if 5 < i then mem.startsWith (ascii "HTTP/") 0 else some false

/-- The parse of `header_callback`. -/
def scan (bufferLength : Nat) : Option Scanned := do
  let i ← mem.scanColon bufferLength 0
  let special ← mem.special bufferLength i
  if special then
    let http ← mem.http i
    if http then (mem.parts bufferLength i).map .statusLine else some .endOfHead
  else (mem.parts bufferLength i).map .header

/-- The memory shows the text, from `first` on. -/
def Shows (first : Int) (text : List UInt8) : Prop :=
  ∀ (k : Nat) (h : k < text.length), mem (first + k) = some text[k]

end Memory

/-! ## What the loops do -/

namespace Memory
variable {mem : Memory} {first : Int} {text : List UInt8} {c : UInt8}

theorem Shows.head (h : mem.Shows first (c :: text)) : mem first = some c := by
  have h0 := h 0 (Nat.zero_lt_succ _)
  rwa [Int.natCast_zero, Int.add_zero] at h0

theorem Shows.tail (h : mem.Shows first (c :: text)) : mem.Shows (first + 1) text := by
  intro k hk
  have hk1 := h (k + 1) (Nat.succ_lt_succ hk)
  rwa [Int.natCast_add, Int.natCast_one, Int.add_comm (k : Int), ← Int.add_assoc] at hk1

theorem Shows.last (h : mem.Shows first (text ++ [c])) : mem (first + text.length) = some c := by
  have hlast := h text.length (by simp)
  rwa [List.getElem_concat_length rfl] at hlast

theorem Shows.left {rest : List UInt8} (h : mem.Shows first (text ++ rest)) :
    mem.Shows first text := by
  intro k hk
  rw [h k (by rw [List.length_append]; omega), List.getElem_append_left hk]

theorem Shows.right {rest : List UInt8} (h : mem.Shows first (text ++ rest)) :
    mem.Shows (first + text.length) rest := by
  intro k hk
  have hright := h (text.length + k) (by rw [List.length_append]; omega)
  rw [List.getElem_append_right (by omega)] at hright
  simpa [Int.add_assoc] using hright

theorem scanColon_shows : ∀ {text : List UInt8} {i : Nat}, mem.Shows i text →
    i + text.length < 2 ^ 31 →
      mem.scanColon text.length i = some (i + text.findIdx (· == 58))
  | [], _, _, _ => rfl
  | c :: text, i, h, hint => by
      rw [List.length_cons] at hint
      rw [List.length_cons, scanColon, h.head, List.findIdx_cons]
      by_cases hc : c = 58
      · simp [hc]
      · have htail : mem.Shows ((i + 1 : Nat) : Int) text := by simpa using h.tail
        have hrest := scanColon_shows htail (by omega)
        rw [Option.bind_eq_bind, Option.bind_some, if_neg hc, if_pos (by omega), hrest,
          beq_eq_false_iff_ne.mpr hc, cond_false, Nat.add_assoc, Nat.add_comm 1]

theorem wspTrimStart_shows : ∀ {text : List UInt8} {first : Int}, mem.Shows first text →
    ∃ valStart, mem.wspTrimStart text.length first =
        some (valStart, (Chttpc.wspTrimStart text).length) ∧
      mem.Shows valStart (Chttpc.wspTrimStart text)
  | [], first, h => ⟨first, rfl, h⟩
  | c :: text, first, h => by
      rw [List.length_cons, wspTrimStart, h.head, Option.bind_eq_bind, Option.bind_some]
      by_cases hc : c = 32
      · have htext : Chttpc.wspTrimStart (c :: text) = Chttpc.wspTrimStart text :=
          List.dropWhile_cons_of_pos (beq_iff_eq.mpr hc)
        rw [if_pos hc, htext]
        exact wspTrimStart_shows h.tail
      · have htext : Chttpc.wspTrimStart (c :: text) = c :: text :=
          List.dropWhile_cons_of_neg (by simpa using hc)
        rw [if_neg hc, htext]
        exact ⟨first, rfl, h⟩

theorem wspTrimEnd_shows (h : mem.Shows first text) :
    mem.wspTrimEnd first text.length = some (Chttpc.wspTrimEnd text).length := by
  induction text using List.reverseRecOn with
  | nil => rfl
  | append_singleton text c ih =>
    rw [List.length_append, List.length_singleton, wspTrimEnd, h.last, Option.bind_eq_bind,
      Option.bind_some]
    by_cases hc : trimmedAtEnd c = true
    · have htext : Chttpc.wspTrimEnd (text ++ [c]) = Chttpc.wspTrimEnd text :=
        List.rdropWhile_concat_pos _ _ _ hc
      rw [if_pos hc, htext]
      exact ih h.left
    · have htext : Chttpc.wspTrimEnd (text ++ [c]) = text ++ [c] :=
        List.rdropWhile_concat_neg _ _ _ hc
      rw [if_neg hc, htext, List.length_append, List.length_singleton]

theorem strncpy_shows : ∀ {text : List UInt8} {src : Int}, mem.Shows src text →
    mem.strncpy text.length src = some (cString text)
  | [], _, _ => rfl
  | c :: text, src, h => by
      rw [List.length_cons, strncpy, h.head]
      by_cases hc : c = 0
      · simp [hc, cString]
      · simp [hc, strncpy_shows h.tail, cString_cons hc]

/-- The text is compared where there is enough memory. -/
theorem startsWith_shows : ∀ {expected text : List UInt8} {i : Int}, mem.Shows i text →
    expected.length ≤ text.length →
      mem.startsWith expected i = some (text.take expected.length == expected)
  | [], _, _, _, _ => by simp [startsWith]
  | e :: expected, [], _, _, hle => by simp at hle
  | e :: expected, c :: text, i, h, hle => by
      rw [startsWith, h.head]
      by_cases hc : c = e
      · have hrest := startsWith_shows h.tail (Nat.le_of_succ_le_succ hle)
        simp [hc, hrest]
      · simp [hc]

/-! ## The parse -/

theorem parts_shows {keyText valueText : List UInt8} {bufferLength : Nat}
    (hkey : mem.Shows 0 keyText) (hvalue : mem.Shows (keyText.length + 1) valueText)
    (hlength : bufferLength = keyText.length + valueText.length) :
    mem.parts bufferLength keyText.length =
      some ⟨(Chttpc.wspTrimEnd keyText).length, cString (Chttpc.wspTrimEnd keyText),
        (wspTrim valueText).length, cString (wspTrim valueText)⟩ := by
  have hn : bufferLength - keyText.length = valueText.length := by omega
  obtain ⟨valStart, hstart, hshows⟩ := wspTrimStart_shows hvalue
  have hprefix (text : List UInt8) : Chttpc.wspTrimEnd text <+: text := List.rdropWhile_prefix _ _
  obtain ⟨keyRest, hkeyRest⟩ := hprefix keyText
  obtain ⟨valueRest, hvalueRest⟩ := hprefix (Chttpc.wspTrimStart valueText)
  have hkeyShows : mem.Shows 0 (Chttpc.wspTrimEnd keyText) := (hkeyRest.symm ▸ hkey).left
  have hvalueShows : mem.Shows valStart (wspTrim valueText) := (hvalueRest.symm ▸ hshows).left
  unfold parts
  rw [wspTrimEnd_shows hkey, hn, hstart]
  show ((mem.wspTrimEnd valStart (Chttpc.wspTrimStart valueText).length).bind _) = _
  rw [wspTrimEnd_shows hshows]
  show ((mem.strncpy (wspTrim valueText).length valStart).bind _) = _
  rw [strncpy_shows hvalueShows]
  show ((mem.strncpy (Chttpc.wspTrimEnd keyText).length 0).bind _) = _
  rw [strncpy_shows hkeyShows]
  rfl

end Memory

namespace HeaderLine
variable (line : HeaderLine)

/-- The line in its memory. -/
def memory : Memory := fun i => some (line.byte i)

/-- The range the value is taken from: the bytes behind the colon, and one more. -/
def valueRange : List UInt8 :=
  (List.range (line.bufferLength - line.colon)).map fun k : Nat => line.byte (line.colon + 1 + k)

theorem trimmedValue_eq : line.trimmedValue = wspTrim line.valueRange := by
  unfold trimmedValue valueRange
  congr 1
  simp only [List.map_flatMap, List.bind_eq_flatMap, List.pure_def, List.map_cons, List.map_nil]
  exact List.map_eq_flatMap.symm

/-- The range of the value is what follows the colon, and the byte behind the line. -/
theorem valueRange_eq {line : HeaderLine} (h : line.colon < line.bufferLength) :
    line.valueRange = line.bytes.drop (line.colon + 1) ++ [line.outside line.bufferLength] := by
  have hlength : (line.bytes.drop (line.colon + 1)).length + 1 =
      line.bufferLength - line.colon := by
    rw [List.length_drop]
    unfold bufferLength at h ⊢
    omega
  refine List.ext_getElem (by rw [List.length_append, List.length_singleton, hlength]; simp [valueRange])
    fun k hk _ => ?_
  rw [valueRange, List.length_map, List.length_range, ← hlength] at hk
  simp only [valueRange, List.getElem_map, List.getElem_range]
  rw [show (line.colon : Int) + 1 + k = ((line.colon + 1 + k : Nat) : Int) by omega, byte_natCast]
  by_cases hin : k < (line.bytes.drop (line.colon + 1)).length
  · have hlt : line.colon + 1 + k < line.bytes.length := by
      rw [List.length_drop] at hin
      omega
    rw [List.getElem_append_left hin, List.getElem_drop, List.getD_eq_getElem?_getD,
      List.getElem?_eq_getElem hlt, Option.getD_some]
  · have hend : line.colon + 1 + k = line.bufferLength := by
      have hk' : k = (line.bytes.drop (line.colon + 1)).length := by omega
      omega
    rw [List.getElem_append_right (by omega), hend, List.getD_eq_getElem?_getD,
      List.getElem?_eq_none (show line.bytes.length ≤ line.bufferLength from Nat.le_refl _),
      Option.getD_none, List.getElem_singleton]

def parts : Parts := ⟨line.trimmedKey.length, line.key, line.trimmedValue.length, line.value⟩

def scanned : Scanned :=
  if line.isSpecial then
    if line.isStatusLine then .statusLine line.parts else .endOfHead
  else .header line.parts

theorem colon_le : line.colon ≤ line.bufferLength := List.findIdx_le_length

theorem take_colon : (line.bytes.take line.colon).length = line.colon :=
  List.length_take_of_le line.colon_le

variable {line} {mem : Memory}

/-- A memory that shows the line and what is read around it is parsed as the model says. -/
theorem scan_shows (hbytes : mem.Shows 0 line.bytes)
    (hspecial : mem.special line.bufferLength line.colon = some line.isSpecial)
    (hvalue : mem.Shows (line.colon + 1) line.valueRange) (hint : line.bufferLength < 2 ^ 31) :
    mem.scan line.bufferLength = some line.scanned := by
  have hcolon : mem.scanColon line.bufferLength 0 = some line.colon := by
    have hscan := Memory.scanColon_shows (i := 0) hbytes (by rw [Nat.zero_add]; exact hint)
    rwa [Nat.zero_add] at hscan
  have hparts : mem.parts line.bufferLength line.colon = some line.parts := by
    have hkey : mem.Shows 0 (line.bytes.take line.colon) :=
      Memory.Shows.left ((List.take_append_drop line.colon line.bytes).symm ▸ hbytes)
    have hle := line.colon_le
    have hrange : line.valueRange.length = line.bufferLength - line.colon := by
      simp [valueRange]
    have hlength : line.bufferLength =
        (line.bytes.take line.colon).length + line.valueRange.length := by
      rw [line.take_colon, hrange]
      omega
    have h := Memory.parts_shows hkey (by rw [line.take_colon]; exact hvalue) hlength
    rwa [line.take_colon, ← line.trimmedValue_eq] at h
  have hhttp : mem.http line.colon =
      some (decide (5 < line.colon) && line.bytes.take 5 == ascii "HTTP/") := by
    unfold Memory.http
    by_cases hlong : 5 < line.colon
    · rw [if_pos hlong, decide_eq_true hlong, Bool.true_and]
      exact Memory.startsWith_shows hbytes (hlong.le.trans line.colon_le)
    · rw [if_neg hlong, decide_eq_false hlong, Bool.false_and]
  unfold Memory.scan
  rw [hcolon]
  show ((mem.special line.bufferLength line.colon).bind _) = _
  rw [hspecial, Option.bind_some, scanned, isStatusLine]
  cases line.isSpecial with
  | false =>
    rw [if_neg (by decide), hparts]
    rfl
  | true =>
    rw [if_pos rfl, Bool.true_and, hhttp, Option.bind_eq_bind, Option.bind_some]
    cases decide (5 < line.colon) && line.bytes.take 5 == ascii "HTTP/" with
    | false => rfl
    | true =>
      rw [if_pos rfl, hparts]
      rfl

theorem special_shows (h : line.colon = line.bufferLength →
    mem (line.bufferLength - 2) = some (line.byte (line.bufferLength - 2)) ∧
      mem (line.bufferLength - 1) = some (line.byte (line.bufferLength - 1))) :
    mem.special line.bufferLength line.colon = some line.isSpecial := by
  unfold Memory.special isSpecial
  by_cases hcolon : line.colon = line.bufferLength
  · obtain ⟨hcr, hlf⟩ := h hcolon
    rw [if_pos hcolon, hcr, hlf, beq_iff_eq.mpr hcolon, Bool.true_and, Option.bind_eq_bind,
      Option.bind_some]
    by_cases hbyte : line.byte (line.bufferLength - 2) = 13
    · rw [if_pos hbyte, beq_iff_eq.mpr hbyte, Bool.true_and]
      rfl
    · rw [if_neg hbyte, beq_eq_false_iff_ne.mpr hbyte, Bool.false_and]
  · rw [if_neg hcolon, beq_eq_false_iff_ne.mpr hcolon, Bool.false_and, Bool.false_and]

theorem memory_shows_bytes (line : HeaderLine) : line.memory.Shows 0 line.bytes := by
  intro k hk
  rw [memory, Int.zero_add, byte_natCast, List.getD_eq_getElem?_getD, List.getElem?_eq_getElem hk,
    Option.getD_some]

theorem memory_shows_range (line : HeaderLine) :
    line.memory.Shows (line.colon + 1) line.valueRange := by
  intro k hk
  simp [memory, valueRange]

/-- **The parse, pointer by pointer, is the one of the model.** -/
theorem scan_memory (line : HeaderLine) (hint : line.bufferLength < 2 ^ 31) :
    line.memory.scan line.bufferLength = some line.scanned :=
  scan_shows line.memory_shows_bytes (special_shows fun _ => ⟨rfl, rfl⟩) line.memory_shows_range
    hint

/-- A line of two bytes or more without a colon is parsed from its bytes. -/
theorem scan_of_no_colon {line : HeaderLine} {mem : Memory} (hbytes : mem.Shows 0 line.bytes)
    (hcolon : 58 ∉ line.bytes) (htwo : 2 ≤ line.bufferLength) (hint : line.bufferLength < 2 ^ 31) :
    mem.scan line.bufferLength = some line.scanned := by
  have hend : line.colon = line.bufferLength := colon_eq_iff.mpr hcolon
  have hbyte (k : Nat) (hk : k < line.bufferLength) : mem k = some (line.byte k) := by
    have h := hbytes k hk
    rw [Int.zero_add] at h
    rw [h, byte_natCast, List.getD_eq_getElem?_getD, List.getElem?_eq_getElem hk, Option.getD_some]
  refine scan_shows hbytes (special_shows fun _ => ⟨?_, ?_⟩) ?_ hint
  · have h := hbyte (line.bufferLength - 2) (by omega)
    rwa [Int.ofNat_sub htwo] at h
  · have h := hbyte (line.bufferLength - 1) (by omega)
    rwa [Int.ofNat_sub (by omega)] at h
  · intro k hk
    simp [valueRange, hend] at hk

end HeaderLine

/-! ## Reads out of bounds -/

/-- A memory of nothing but the line. -/
def Memory.only (bytes : List UInt8) : Memory := fun i => if i < 0 then none else bytes[i.toNat]?

namespace Memory
variable {mem : Memory}

theorem only_shows (bytes : List UInt8) : (only bytes).Shows 0 bytes := by
  intro k hk
  simp [only, hk]

/-- Behind the loop that trims the start, the end is where it was, and what has been
passed has been read. -/
theorem wspTrimStart_end : ∀ {n m : Nat} {first valStart : Int},
    mem.wspTrimStart n first = some (valStart, m) →
      valStart + m = first + n ∧ (m = 0 → ∀ k < n, mem (first + k) ≠ none)
  | 0, m, first, valStart, h => by
      cases h
      exact ⟨rfl, fun _ k hk => absurd hk (Nat.not_lt_zero k)⟩
  | n + 1, m, first, valStart, h => by
      rw [wspTrimStart] at h
      obtain ⟨c, hc, h⟩ := Option.bind_eq_some_iff.mp h
      by_cases hspace : c = 32
      · rw [if_pos hspace] at h
        obtain ⟨hend, hread⟩ := wspTrimStart_end h
        refine ⟨by omega, fun hm k hk => ?_⟩
        cases k with
        | zero => simp [hc]
        | succ k =>
          have hnext := hread hm k (by omega)
          rwa [Int.add_assoc, Int.add_comm 1] at hnext
      · rw [if_neg hspace] at h
        cases h
        exact ⟨rfl, fun hm => absurd hm (Nat.succ_ne_zero n)⟩

/-- The value of a line with a colon is not found without the byte behind the line. -/
theorem parts_out_of_bounds {bufferLength i : Nat} (hi : i < bufferLength)
    (hend : mem bufferLength = none) : mem.parts bufferLength i = none := by
  rw [Option.eq_none_iff_forall_ne_some]
  intro found h
  unfold parts at h
  obtain ⟨keyLen, -, h⟩ := Option.bind_eq_some_iff.mp h
  obtain ⟨⟨valStart, n⟩, hstart, h⟩ := Option.bind_eq_some_iff.mp h
  obtain ⟨valueLen, hvalue, -⟩ := Option.bind_eq_some_iff.mp h
  obtain ⟨hsum, hread⟩ := wspTrimStart_end hstart
  cases n with
  | zero =>
    have hlast := hread rfl (bufferLength - i - 1) (by omega)
    rw [show (i : Int) + 1 + ((bufferLength - i - 1 : Nat) : Int) = bufferLength by omega] at hlast
    exact hlast hend
  | succ m =>
    rw [wspTrimEnd, show valStart + (m : Int) = bufferLength by omega, hend] at hvalue
    cases hvalue

/-- The counter passes over every byte that is no colon. -/
theorem scanColon_le : ∀ {rest i j : Nat}, mem.scanColon rest i = some j →
    i ≤ j ∧ j ≤ i + rest ∧ (0 < rest → j < 2 ^ 31 ∨ j < i + rest)
  | 0, _, _, h => by
      cases h
      exact ⟨Nat.le_refl _, Nat.le_refl _, fun h => absurd h (Nat.lt_irrefl 0)⟩
  | rest + 1, i, j, h => by
      rw [scanColon] at h
      obtain ⟨c, -, h⟩ := Option.bind_eq_some_iff.mp h
      split at h
      · cases h
        exact ⟨Nat.le_refl _, Nat.le_add_right _ _, fun _ => .inr (by omega)⟩
      · split at h
        · obtain ⟨hle, hge, hlt⟩ := scanColon_le h
          refine ⟨by omega, by omega, fun _ => ?_⟩
          cases rest with
          | zero => exact .inl (by omega)
          | succ rest => exact (hlt (Nat.succ_pos _)).imp_right fun h => by omega
        · cases h

end Memory

/-- A line is parsed from its own bytes: nothing else is read, what is stored is the
same whatever lies around it, and a line with a colon is cut in the two texts around the
first one, trimmed, each up to its first NUL. -/
structure DependsOnLine (bytes : List UInt8) : Prop where
  inside : (Memory.only bytes).scan bytes.length ≠ none
  same : ∀ mem mem' : Memory, mem.Shows 0 bytes → mem'.Shows 0 bytes →
    mem.scan bytes.length = mem'.scan bytes.length
  parsed : ∀ (mem : Memory) (i : Nat), mem.Shows 0 bytes → bytes.findIdx? (· == 58) = some i →
    ∃ keyLen valueLen, mem.scan bytes.length = some (.header
      ⟨keyLen, cString (wspTrimEnd (bytes.take i)),
        valueLen, cString (wspTrim (bytes.drop (i + 1)))⟩)

/-- **A line is parsed from its own bytes** exactly if it has no colon, has two bytes or
more and is no longer than an `int` can count. -/
theorem dependsOnLine_iff (bytes : List UInt8) :
    DependsOnLine bytes ↔ 58 ∉ bytes ∧ 2 ≤ bytes.length ∧ bytes.length < 2 ^ 31 := by
  constructor
  · intro h
    obtain ⟨scanned, hscan⟩ := Option.ne_none_iff_exists'.mp h.inside
    unfold Memory.scan at hscan
    obtain ⟨i, hi, hscan⟩ := Option.bind_eq_some_iff.mp hscan
    obtain ⟨special, hspecial, hscan⟩ := Option.bind_eq_some_iff.mp hscan
    have hend : (Memory.only bytes) bytes.length = none := by simp [Memory.only]
    obtain ⟨-, hle, hlimit⟩ := Memory.scanColon_le hi
    rw [Nat.zero_add] at hle hlimit
    -- The scan has passed the last byte, or the value is looked for behind it.
    have hpassed : i = bytes.length := by
      by_contra hne
      rw [Memory.special, if_neg hne] at hspecial
      cases hspecial
      rw [if_neg (by decide), Memory.parts_out_of_bounds (by omega) hend] at hscan
      cases hscan
    subst hpassed
    rw [Memory.special, if_pos rfl] at hspecial
    obtain ⟨cr, hcr, -⟩ := Option.bind_eq_some_iff.mp hspecial
    have htwo : 2 ≤ bytes.length := by
      by_contra hshort
      rw [Memory.only, if_pos (by omega)] at hcr
      cases hcr
    have hint : bytes.length < 2 ^ 31 := (hlimit (by omega)).resolve_right (Nat.lt_irrefl _)
    have hfirst := @Memory.scanColon_shows _ bytes 0 (Memory.only_shows bytes)
      (by rw [Nat.zero_add]; exact hint)
    rw [hi, Option.some_inj, Nat.zero_add] at hfirst
    exact ⟨@HeaderLine.colon_eq_iff (.ofBytes bytes) |>.mp hfirst.symm, htwo, hint⟩
  · rintro ⟨hcolon, htwo, hint⟩
    have hscan (mem : Memory) (hshows : mem.Shows 0 bytes) :
        mem.scan bytes.length = some (HeaderLine.ofBytes bytes).scanned :=
      @HeaderLine.scan_of_no_colon (.ofBytes bytes) mem hshows hcolon htwo hint
    refine ⟨?_, fun mem mem' h h' => (hscan mem h).trans (hscan mem' h').symm,
      fun mem i _ hi => ?_⟩
    · rw [hscan _ (Memory.only_shows bytes)]
      exact Option.some_ne_none _
    · obtain ⟨hlt, hbyte, -⟩ := List.findIdx?_eq_some_iff_getElem.mp hi
      exact absurd (beq_iff_eq.mp hbyte ▸ List.getElem_mem hlt) hcolon

/-- The line `a:1`, with an `X` in the memory behind it: all of it becomes the value.
Without anything behind it, the line is not parsed at all. -/
theorem not_dependsOnLine :
    (Memory.only (ascii "a:1" ++ [13, 10, 88])).scan 5 =
        some (.header ⟨1, ascii "a", 4, [49, 13, 10, 88]⟩) ∧
      ¬ DependsOnLine (ascii "a:1" ++ [13, 10]) :=
  ⟨by decide, fun h => h.inside (by decide)⟩

end Chttpc
