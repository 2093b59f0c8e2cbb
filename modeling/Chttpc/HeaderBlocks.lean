import Chttpc.HeaderSlots

/-!
# Responses that follow each other on one transfer

A transfer may receive several response heads: an interim one, those of the
redirects, the final one.  Each is a `ResponseBlock`: a status line, header lines
and a blank line, in the shape libcurl hands them over.

The store is cleared when a status line is recognised behind the end of a head.
The scan that recognises it is the one that looks for a colon, so a status line
with a colon in its reason phrase is taken for a header: nothing is cleared, and
slot 0 keeps what it had.  `holds_last_block_iff` gives the exact condition under
which the store holds the last block and nothing else.
-/

namespace Chttpc
open CircularList

/-! ## Lines by their text -/

section Text
variable {line : HeaderLine} {text : List UInt8}

theorem byte_natCast (line : HeaderLine) (i : Nat) :
    line.byte i = line.bytes.getD i (line.outside i) := by
  simp [HeaderLine.byte]

theorem HeaderLine.colon_eq_iff :
    line.colon = line.bufferLength ↔ 58 ∉ line.bytes := by
  rw [HeaderLine.colon, HeaderLine.bufferLength, List.findIdx_eq_length]
  constructor
  · intro h hmem
    simpa using h 58 hmem
  · intro h x hx
    have hne : x ≠ 58 := fun he => h (he ▸ hx)
    simpa using hne

theorem isSpecial_of_colon (h : 58 ∈ line.bytes) : line.isSpecial = false := by
  have hne : line.colon ≠ line.bufferLength := fun he => HeaderLine.colon_eq_iff.mp he h
  simp [HeaderLine.isSpecial, hne]

theorem isSpecial_of_crlf (hbytes : line.bytes = text ++ [13, 10]) (h : 58 ∉ line.bytes) :
    line.isSpecial = true := by
  have hlen : line.bufferLength = text.length + 2 := by simp [HeaderLine.bufferLength, hbytes]
  have hcr : line.byte (line.bufferLength - 2) = 13 := by
    have hi : (line.bufferLength : Int) - 2 = (text.length : Nat) := by omega
    rw [hi, byte_natCast, hbytes]
    simp
  have hlf : line.byte (line.bufferLength - 1) = 10 := by
    have hi : (line.bufferLength : Int) - 1 = (text.length + 1 : Nat) := by omega
    rw [hi, byte_natCast, hbytes]
    simp
  simp [HeaderLine.isSpecial, HeaderLine.colon_eq_iff.mpr h, hcr, hlf]

/-- A CRLF-terminated line that starts with `HTTP/` is a status line, unless there
is a colon in it. -/
theorem isStatusLine_of_http (hbytes : line.bytes = ascii "HTTP/" ++ text ++ [13, 10])
    (h : 58 ∉ line.bytes) : line.isStatusLine = true := by
  have hcolon : 5 < line.colon := by
    rw [HeaderLine.colon_eq_iff.mpr h, HeaderLine.bufferLength, hbytes]
    have hhttp : (ascii "HTTP/").length = 5 := by decide
    simp [hhttp]
  have htake : line.bytes.take 5 = ascii "HTTP/" := by
    rw [hbytes, List.append_assoc]
    exact List.take_left' (by decide)
  simp [HeaderLine.isStatusLine, isSpecial_of_crlf hbytes h, hcolon, htake]

theorem blank_isSpecial (hbytes : line.bytes = [13, 10]) : line.isSpecial = true :=
  isSpecial_of_crlf (hbytes.trans (List.nil_append _).symm) (by rw [hbytes]; decide)

theorem blank_not_isStatusLine (hbytes : line.bytes = [13, 10]) : line.isStatusLine = false := by
  have hne : ([13, 10] : List UInt8) ≠ ascii "HTTP/" := by decide
  simp [HeaderLine.isStatusLine, hbytes, hne]

theorem mem_of_mem_cString {c : UInt8} (h : c ∈ cString text) : c ∈ text :=
  (List.takeWhile_sublist _).mem h

theorem mem_of_mem_wspTrimEnd {c : UInt8} (h : c ∈ wspTrimEnd text) : c ∈ text :=
  (List.rdropWhile_prefix trimmedAtEnd text).subset h

/-- Trimming removes trimmed bytes only. -/
theorem mem_wspTrimEnd {c : UInt8} (hc : trimmedAtEnd c = false) :
    ∀ text : List UInt8, c ∈ text → c ∈ wspTrimEnd text := by
  intro text
  induction text using List.reverseRecOn with
  | nil => exact fun h => absurd h List.not_mem_nil
  | append_singleton text x ih =>
    intro h
    rw [wspTrimEnd, List.rdropWhile_concat]
    split
    · rename_i hx
      rcases List.mem_append.mp h with h | h
      · exact ih h
      · rw [List.mem_singleton.mp h, hx] at hc
        cases hc
    · exact h

/-- A name ends before the first colon of its line. -/
theorem colon_not_mem_key (line : HeaderLine) : 58 ∉ line.key := by
  intro h
  have htake := mem_of_mem_wspTrimEnd (mem_of_mem_cString h)
  obtain ⟨i, hi, hc⟩ := List.getElem_of_mem htake
  rw [List.length_take] at hi
  rw [List.getElem_take] at hc
  have hnot : (line.bytes[i] == 58) = false :=
    List.not_of_lt_findIdx (Nat.lt_of_lt_of_le hi (Nat.min_le_left _ _))
  simp [hc] at hnot

end Text

/-! ## Response heads -/

/-- One response head, line by line. -/
structure ResponseBlock where
  statusLine : HeaderLine
  reason : List UInt8
  headers : List HeaderLine
  blankLine : HeaderLine
  statusLine_bytes : statusLine.bytes = ascii "HTTP/" ++ reason ++ [13, 10]
  headers_bytes : ∀ line ∈ headers, ∃ name value, line.bytes = name ++ 58 :: (value ++ [13, 10])
  blankLine_bytes : blankLine.bytes = [13, 10]
  allocated : ∀ line ∈ statusLine :: (headers ++ [blankLine]), line.Allocated

namespace ResponseBlock
variable (block : ResponseBlock)

def lines : List HeaderLine := block.statusLine :: (block.headers ++ [block.blankLine])

/-- The status line as it is to be read back. -/
def statusText : List UInt8 := wspTrimEnd block.statusLine.bytes

variable {block}

theorem header_not_special {line : HeaderLine} (h : line ∈ block.headers) :
    line.isSpecial = false := by
  obtain ⟨name, value, hbytes⟩ := block.headers_bytes line h
  exact isSpecial_of_colon (by rw [hbytes]; simp)

theorem header_allocated {line : HeaderLine} (h : line ∈ block.headers) : line.Allocated :=
  block.allocated line (by simp [h])

theorem statusLine_allocated : block.statusLine.Allocated :=
  block.allocated _ List.mem_cons_self

theorem blankLine_allocated : block.blankLine.Allocated :=
  block.allocated _ (by simp)

theorem lines_allocated {blocks : List ResponseBlock} :
    ∀ line ∈ blocks.flatMap lines, line.Allocated := by
  intro line hline
  obtain ⟨b, -, hb⟩ := List.mem_flatMap.mp hline
  exact b.allocated line hb

theorem run_lines (o : Observed) :
    o.run block.lines = ((o.step block.statusLine).run block.headers).step block.blankLine := by
  rw [lines, Observed.run, Runs.run_cons, Runs.run_append]
  rfl

end ResponseBlock

/-- The store holds the response head of `block` and nothing else; its blocks are
those from `base` on. -/
structure HoldsExactly (base : Nat) (block : ResponseBlock) (ctrl : CurlData) : Prop where
  statusLine : ∃ name, ctrl.headerPairs 1 = some (.key name) ∧ name.chars = block.statusText
  count : ctrl.headerPairCount = 1 + block.headers.length
  lookup : ∀ key found, ctrl.headers.hashmapGet key = some found → base ≤ found
  pairs : ∀ j < ctrl.headerPairCount,
    (∃ value, ctrl.headerPairs (2 * j) = some (.value value) ∧ base ≤ value) ∧
      ∃ name, ctrl.headerPairs (2 * j + 1) = some (.key name) ∧ base < name.addr
  entries : ∀ e ∈ ctrl.headers.entries, base < e.key.addr ∧
    ∃ first values, ctrl.refOf e.value = some first ∧
      walk ctrl.refOf first ctrl.blocks.length first = some values ∧ ∀ v ∈ values, base ≤ v

/-! ## A block that is recognised -/

section Recognised
variable {o : Observed} {block : ResponseBlock}

/-- Header lines behind a status line leave slot 0 as it is. -/
theorem Filled.run_headers : ∀ (lines : List HeaderLine) (o : Observed), Filled o →
    (∀ line ∈ lines, line.isSpecial = false ∧ line.Allocated) → 0 < o.ctrl.headerPairCount →
    o.ctrl.headerPairCount + lines.length ≤ 65535 →
    Filled (o.run lines) ∧ (o.run lines).since = o.since ∧
      (o.run lines).ctrl.headerPairCount = o.ctrl.headerPairCount + lines.length ∧
      (o.run lines).ctrl.headerPairs 1 = o.ctrl.headerPairs 1
  | [], _, h, _, _, _ => ⟨h, rfl, rfl, rfl⟩
  | line :: lines, o, h, hlines, hpos, hle => by
      obtain ⟨hs, hok⟩ := hlines line List.mem_cons_self
      have hafter : CurlData.AfterHeader line o.ctrl (o.ctrl.headerCallback line).1 :=
        (CurlData.headerCallback_header hs hok.2).1
      rw [List.length_cons] at hle
      have hcount : (o.step line).ctrl.headerPairCount = o.ctrl.headerPairCount + 1 := by
        rw [Observed.step_ctrl, hafter.headerPairCount]
        exact Nat.mod_eq_of_lt (by omega)
      have hone : (o.step line).ctrl.headerPairs 1 = o.ctrl.headerPairs 1 := by
        rw [Observed.step_ctrl, hafter.headerPairs]
        dsimp only
        rw [if_neg (by omega), if_neg (by omega)]
      have hsince : (o.step line).since = o.since := by rw [Observed.step_header hs]
      obtain ⟨h1, h2, h3, h4⟩ := Filled.run_headers lines (o.step line)
        (h.header hok hs (by omega)) (fun l hl => hlines l (List.mem_cons_of_mem _ hl))
        (by omega) (by omega)
      refine ⟨h1, h2.trans hsince, ?_, h4.trans hone⟩
      rw [List.length_cons, ← Nat.add_assoc, Nat.add_right_comm, ← hcount]
      exact h3

/-- A head whose status line is recognised fills the array anew, from any state of
the store in which that line empties the array or finds it empty. -/
theorem run_recognised (h : Stored o)
    (hempty : o.ctrl.state.seenHeaderEnd = true ∨
      (o.ctrl.headerPairCount = 0 ∧ o.since = o.ctrl.blocks.length))
    (hcolon : 58 ∉ block.statusLine.bytes) (hlen : block.headers.length < 65535) :
    Filled (o.run block.lines) ∧ (o.run block.lines).since = o.ctrl.blocks.length ∧
      (o.run block.lines).ctrl.headerPairCount = 1 + block.headers.length ∧
      (o.run block.lines).ctrl.headerPairs 1 =
        some (.key (block.statusLine.name o.ctrl.blocks.length)) := by
  have hok := block.statusLine_allocated
  have ht : block.statusLine.isStatusLine = true :=
    isStatusLine_of_http block.statusLine_bytes hcolon
  have hfirst := Filled.of_statusLine h hok ht hempty
  have hcount1 := Filled.count_statusLine h hok ht (hempty.imp_right And.left)
  have hblocks : (o.step block.statusLine).ctrl.blocks.length = o.ctrl.blocks.length + 1 := by
    rw [Observed.step_ctrl, CurlData.headerCallback_statusLine ht hok.2 h.bufSize_pos]
    simp
  have hslot : (o.step block.statusLine).ctrl.headerPairs 1 =
      some (.key (block.statusLine.name o.ctrl.blocks.length)) := by
    rw [Observed.step_ctrl, CurlData.headerCallback_statusLine ht hok.2 h.bufSize_pos]
    simp
  have heq := hfirst.count_eq
  obtain ⟨hfilled, hsince, hcount, hone⟩ := Filled.run_headers block.headers _ hfirst
    (fun l hl => ⟨block.header_not_special hl, block.header_allocated hl⟩) (by omega) (by omega)
  have hblank := hfilled.terminator block.blankLine_allocated (blank_isSpecial block.blankLine_bytes)
    (blank_not_isStatusLine block.blankLine_bytes)
  rw [ResponseBlock.run_lines]
  rw [Observed.step_terminator (blank_isSpecial block.blankLine_bytes)
    (blank_not_isStatusLine block.blankLine_bytes)] at hblank ⊢
  exact ⟨hblank, by dsimp only; omega, by dsimp only; omega, hone.trans hslot⟩

theorem key_statusLine (hcolon : 58 ∉ block.statusLine.bytes) :
    block.statusLine.key = cString block.statusText := by
  rw [HeaderLine.key, HeaderLine.trimmedKey, HeaderLine.colon_eq_iff.mpr hcolon,
    HeaderLine.bufferLength, List.take_length]
  rfl

/-- What the store shows after a head that is recognised. -/
theorem holdsExactly_of_recognised (h : Stored o)
    (hempty : o.ctrl.state.seenHeaderEnd = true ∨
      (o.ctrl.headerPairCount = 0 ∧ o.since = o.ctrl.blocks.length))
    (hcolon : 58 ∉ block.statusLine.bytes) (hnul : 0 ∉ block.statusText)
    (hlen : block.headers.length < 65535) :
    HoldsExactly o.ctrl.blocks.length block (o.run block.lines).ctrl := by
  obtain ⟨hfilled, hsince, hcount, hslot⟩ := run_recognised h hempty hcolon hlen
  have htext : block.statusLine.key = block.statusText :=
    (key_statusLine hcolon).trans (cString_eq_self_iff.mpr hnul)
  rw [← hsince]
  refine ⟨⟨_, hslot, htext⟩, hcount, ?_, ?_, ?_⟩
  · exact fun key found hget => hfilled.hashmapGet_since hget
  · exact fun j hj => ⟨⟨_, hfilled.value j hj, Nat.le_add_right _ _⟩, hfilled.key j hj⟩
  · intro e he
    obtain ⟨first, href, hwalk⟩ := hfilled.walk_ring he
    exact ⟨(hfilled.key_since e he).1, first, _, href, hwalk, fun v hv => (hfilled.value_lt hv).1⟩

end Recognised

/-! ## What slot 0 can show -/

/-- The name in slot 0 has no colon. -/
def SlotWithoutColon (ctrl : CurlData) : Prop :=
  ∃ name, ctrl.headerPairs 1 = some (.key name) ∧ 58 ∉ name.chars

section SlotZero
variable {o : Observed} {line : HeaderLine}

theorem Rings.colon_not_mem_owner (h : Rings o) (line : HeaderLine) :
    58 ∉ (o.ctrl.owner line).chars := by
  unfold CurlData.owner
  split
  · rename_i e he
    obtain ⟨ref, hget, hat⟩ := Option.bind_eq_some_iff.mp he
    obtain ⟨front, x, rest, hentries, hx, -, -⟩ := Hashmap.entryGet_some hget
    cases hat.symm.trans hx
    obtain ⟨a, -, hkey⟩ := h.key_line e (by rw [hentries]; simp)
    rw [hkey]
    exact colon_not_mem_key a.line
  · exact colon_not_mem_key line

/-- A line that is stored leaves a name without a colon in slot 0. -/
theorem Stored.slotWithoutColon (h : Stored o) (hok : line.Allocated)
    (hs : line.isSpecial = false ∨ line.isStatusLine = true)
    (hslot : o.ctrl.headerPairCount = 0 ∨ SlotWithoutColon o.ctrl) :
    SlotWithoutColon (o.step line).ctrl := by
  rw [Observed.step_ctrl]
  rcases hs with hs | ht
  · have hafter : CurlData.AfterHeader line o.ctrl (o.ctrl.headerCallback line).1 :=
      (CurlData.headerCallback_header hs hok.2).1
    rw [SlotWithoutColon, hafter.headerPairs]
    dsimp only
    by_cases hcount : o.ctrl.headerPairCount = 0
    · rw [if_neg (by omega), if_pos (by omega), CurlData.storeHeader_name]
      exact ⟨_, rfl, h.colon_not_mem_owner line⟩
    · rw [if_neg (by omega), if_neg (by omega)]
      exact hslot.resolve_left hcount
  · rw [CurlData.headerCallback_statusLine ht hok.2 h.bufSize_pos]
    exact ⟨line.name o.ctrl.blocks.length, by simp, colon_not_mem_key line⟩

theorem Stored.keeps_slotWithoutColon (h : Stored o) (hok : line.Allocated)
    (hslot : o.ctrl.headerPairCount = 0 ∨ SlotWithoutColon o.ctrl) :
    (o.step line).ctrl.headerPairCount = 0 ∨ SlotWithoutColon (o.step line).ctrl := by
  cases hs : line.isSpecial with
  | false => exact Or.inr (h.slotWithoutColon hok (Or.inl hs) hslot)
  | true =>
    cases ht : line.isStatusLine with
    | true => exact Or.inr (h.slotWithoutColon hok (Or.inr ht) hslot)
    | false => rw [Observed.step_terminator hs ht]; exact hslot

/-- Behind a first line that is stored, slot 0 shows a name without a colon. -/
theorem Stored.run_slotWithoutColon : ∀ (lines : List HeaderLine) (o : Observed), Stored o →
    (∀ line ∈ lines, line.Allocated ∧ line.isSpecial = false) → SlotWithoutColon o.ctrl →
    Stored (o.run lines) ∧ SlotWithoutColon (o.run lines).ctrl
  | [], _, h, _, hslot => ⟨h, hslot⟩
  | line :: lines, o, h, hlines, hslot => by
      obtain ⟨hok, hs⟩ := hlines line List.mem_cons_self
      exact Stored.run_slotWithoutColon lines (o.step line) (h.step hok)
        (fun l hl => hlines l (List.mem_cons_of_mem _ hl))
        (h.slotWithoutColon hok (Or.inl hs) (Or.inr hslot))

end SlotZero

/-! ## A sequence of blocks -/

section Sequence
variable {ctrl : CurlData}

/-- What is known before a block: the last head has ended, or nothing has been
received. -/
theorem ready_for_block (h : ctrl.IsReset) (earlier : List ResponseBlock) :
    let o := (Observed.start ctrl).run (earlier.flatMap ResponseBlock.lines)
    o.ctrl.state.seenHeaderEnd = true ∨
      (o.ctrl.headerPairCount = 0 ∧ o.since = o.ctrl.blocks.length) := by
  rcases List.eq_nil_or_concat earlier with rfl | ⟨init, block, rfl⟩
  · exact Or.inr ⟨h.headerPairCount, rfl⟩
  · refine Or.inl ?_
    rw [List.concat_eq_append, List.flatMap_append, List.flatMap_singleton, Observed.run,
      Runs.run_append]
    rw [← Observed.run, ← Observed.run, ResponseBlock.run_lines,
      Observed.step_terminator (blank_isSpecial block.blankLine_bytes)
        (blank_not_isStatusLine block.blankLine_bytes)]

/-- Throughout any run, nothing is counted or slot 0 shows a name without a colon. -/
theorem slot_zero_run (h : ctrl.IsReset) {lines : List HeaderLine}
    (hok : ∀ line ∈ lines, line.Allocated) :
    let o := (Observed.start ctrl).run lines
    Stored o ∧ (o.ctrl.headerPairCount = 0 ∨ SlotWithoutColon o.ctrl) := by
  let I (o : Observed) : Prop :=
    Stored o ∧ (o.ctrl.headerPairCount = 0 ∨ SlotWithoutColon o.ctrl)
  have hstep : ∀ o line, I o → line.Allocated → I (o.step line) := fun _ _ ho hl =>
    ⟨ho.1.step hl, ho.1.keeps_slotWithoutColon hl ho.2⟩
  exact Runs.run_invariant Observed.step hstep lines _
    ⟨Stored.start h, Or.inl h.headerPairCount⟩ hok

/-- A status line with a colon leaves a name without one in slot 0. -/
theorem slotWithoutColon_of_colon {o : Observed} {block : ResponseBlock} (h : Stored o)
    (hslot : o.ctrl.headerPairCount = 0 ∨ SlotWithoutColon o.ctrl)
    (hcolon : 58 ∈ block.statusLine.bytes) : SlotWithoutColon (o.run block.lines).ctrl := by
  have hs : block.statusLine.isSpecial = false ∨ block.statusLine.isStatusLine = true :=
    Or.inl (isSpecial_of_colon hcolon)
  obtain ⟨-, hrun⟩ := Stored.run_slotWithoutColon block.headers _
    (h.step block.statusLine_allocated)
    (fun l hl => ⟨block.header_allocated hl, block.header_not_special hl⟩)
    (h.slotWithoutColon block.statusLine_allocated hs hslot)
  rw [ResponseBlock.run_lines, Observed.step_terminator (blank_isSpecial block.blankLine_bytes)
    (blank_not_isStatusLine block.blankLine_bytes)]
  exact hrun

/-- **No header accumulation, exactly.**  After any sequence of response heads the
store holds the last one and nothing else if and only if the status line of the
last head has no colon and no NUL in its text, and fewer than 65535 header lines
follow it. -/
theorem holds_last_block_iff (h : ctrl.IsReset) (earlier : List ResponseBlock)
    (last : ResponseBlock) :
    HoldsExactly (ctrl.receive (earlier.flatMap ResponseBlock.lines)).blocks.length last
        (ctrl.receive ((earlier ++ [last]).flatMap ResponseBlock.lines)) ↔
      58 ∉ last.statusLine.bytes ∧ 0 ∉ last.statusText ∧ last.headers.length < 65535 := by
  have hready := ready_for_block h earlier
  obtain ⟨hstored, hslot⟩ := slot_zero_run h
    (ResponseBlock.lines_allocated : ∀ line ∈ earlier.flatMap ResponseBlock.lines, _)
  have hrun : ctrl.receive ((earlier ++ [last]).flatMap ResponseBlock.lines) =
      (((Observed.start ctrl).run (earlier.flatMap ResponseBlock.lines)).run last.lines).ctrl := by
    rw [Observed.run_ctrl, Observed.run_ctrl, List.flatMap_append, List.flatMap_singleton]
    exact Runs.run_append _ _ _ _
  have hbase : ctrl.receive (earlier.flatMap ResponseBlock.lines) =
      ((Observed.start ctrl).run (earlier.flatMap ResponseBlock.lines)).ctrl :=
    (Observed.run_ctrl _ (Observed.start ctrl)).symm
  rw [hrun, hbase]
  generalize (Observed.start ctrl).run (earlier.flatMap ResponseBlock.lines) = o at *
  constructor
  · intro hexact
    obtain ⟨name, hname, htext⟩ := hexact.statusLine
    have hlen : last.headers.length < 65535 := by
      have hrest : Stored (o.run last.lines) := hstored.run_from last.allocated
      have hlt := hrest.count_lt
      have hcount := hexact.count
      omega
    have hcolon : 58 ∉ last.statusLine.bytes := by
      intro hmem
      obtain ⟨name', hname', hnot⟩ := slotWithoutColon_of_colon hstored hslot hmem
      cases hname.symm.trans hname'
      exact hnot (htext ▸ mem_wspTrimEnd (by decide) _ hmem)
    refine ⟨hcolon, ?_, hlen⟩
    obtain ⟨-, -, -, hone⟩ := run_recognised hstored hready hcolon hlen
    cases hname.symm.trans hone
    exact cString_eq_self_iff.mp ((key_statusLine hcolon).symm.trans htext)
  · exact fun ⟨hcolon, hnul, hlen⟩ =>
      holdsExactly_of_recognised hstored hready hcolon hnul hlen

theorem bytes_blankLine : (HeaderLine.ofBytes [13, 10]).bytes = [13, 10] := rfl

/-- `HTTP/1.1 302 Found`, `Location:/x` and a blank line. -/
def redirectBlock : ResponseBlock where
  statusLine := .ofBytes (ascii "HTTP/" ++ ascii "1.1 302 Found" ++ [13, 10])
  reason := ascii "1.1 302 Found"
  headers := [.ofBytes (ascii "Location" ++ 58 :: (ascii "/x" ++ [13, 10]))]
  blankLine := .ofBytes [13, 10]
  statusLine_bytes := rfl
  headers_bytes := fun _ h => ⟨ascii "Location", ascii "/x", by rw [List.mem_singleton.mp h]; rfl⟩
  blankLine_bytes := bytes_blankLine
  allocated := by simp [HeaderLine.ofBytes, HeaderLine.Allocated]

/-- A final response whose reason phrase has a colon in it. -/
def colonBlock : ResponseBlock where
  statusLine := .ofBytes (ascii "HTTP/" ++ ascii "1.1 200 OK: served" ++ [13, 10])
  reason := ascii "1.1 200 OK: served"
  headers := [.ofBytes (ascii "a" ++ 58 :: (ascii "1" ++ [13, 10]))]
  blankLine := .ofBytes [13, 10]
  statusLine_bytes := rfl
  headers_bytes := fun _ h => ⟨ascii "a", ascii "1", by rw [List.mem_singleton.mp h]; rfl⟩
  blankLine_bytes := bytes_blankLine
  allocated := by simp [HeaderLine.ofBytes, HeaderLine.Allocated]

/-- One head is held exactly. -/
theorem holds_redirectBlock :
    HoldsExactly 0 redirectBlock (nativeCreate.receive redirectBlock.lines) := by
  have h := (holds_last_block_iff CurlData.isReset_nativeCreate [] redirectBlock).mpr (by decide)
  rw [List.nil_append, List.flatMap_singleton] at h
  exact h

/-- After a final response with a colon in its reason phrase, the store still
counts the redirect's status line and header. -/
theorem not_holds_colonBlock :
    ¬ ∀ (earlier : List ResponseBlock) (last : ResponseBlock),
      HoldsExactly (nativeCreate.receive (earlier.flatMap ResponseBlock.lines)).blocks.length last
        (nativeCreate.receive ((earlier ++ [last]).flatMap ResponseBlock.lines)) := by
  intro h
  have hcount := (h [redirectBlock] colonBlock).count
  have hfour : (nativeCreate.receive
      (([redirectBlock] ++ [colonBlock]).flatMap ResponseBlock.lines)).headerPairCount = 4 := by
    decide
  have htwo : 1 + colonBlock.headers.length = 2 := rfl
  omega

end Sequence

end Chttpc
