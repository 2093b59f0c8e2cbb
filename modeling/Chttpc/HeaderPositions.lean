import Chttpc.HeaderLookup
import Chttpc.LineScan

/-!
# Headers by their position

`getResponseHeader` reads the value of a pair and `getResponseHeaderKey`, with the
position negated, its name.  One comparison with the number of pairs guards both, and a
negative number always passes it: behind the last pair a name is read from a slot the
array may not have.

Within the array the value is the one of the line at that position, as far as it was cut
right, and the name is that of the entry the line was resolved to.
-/

namespace Chttpc

/-! ## The calls -/

namespace CurlData
variable (ctrl : CurlData) (platform : Platform)

/-- `CurlHttp.getResponseHeader`, with memory for the string. -/
def getResponseHeader (pos : Nat) : Option JString :=
  ctrl.header platform true none pos fun _ => 0

/-- `CurlHttp.getResponseHeaderKey`, with memory for the string. -/
def getResponseHeaderKey (pos : Nat) : Option JString :=
  if pos = 0 then none else ctrl.header platform true none (-pos) fun _ => 0

end CurlData

namespace ResponseBlock
variable (block : ResponseBlock)

/-- The text a position has. -/
def valueAt : Nat → Option (List UInt8)
  | 0 => some block.statusText
  | j + 1 => block.headers[j]?.map (·.fieldValue)

/-- The name a position has. -/
def nameAt : Nat → Option (List UInt8)
  | 0 => none
  | j + 1 => block.headers[j]?.map fun line => wspTrimEnd line.fieldName

end ResponseBlock

/-- The two calls for a position give the text and, up to its case, the name it has, and
read no slot behind the counted ones. -/
structure PositionalAccess (block : ResponseBlock) (ctrl : CurlData) (pos : Nat) : Prop where
  value : ∀ platform, ctrl.getResponseHeader platform pos =
    (block.valueAt pos).bind (platform.resultString true)
  key : ∃ shown, Option.Rel (fun a b => equalsIgnoringCase a b = true) shown (block.nameAt pos) ∧
    ∀ platform, ctrl.getResponseHeaderKey platform pos = shown.bind (platform.resultString true)
  slots : ∀ n : Int, n = pos ∨ n = -pos → ∀ slot, ctrl.specialSlot n = some slot →
    slot < 2 * ctrl.headerPairCount

/-! ## When a value is cut right -/

section Cut
variable {a b : List UInt8} {c : UInt8}

theorem wspTrimStart_append (h : ∃ x ∈ a, x ≠ 32) :
    wspTrimStart (a ++ b) = wspTrimStart a ++ b := by
  obtain ⟨x, hx, hne⟩ := h
  rw [wspTrimStart, List.dropWhile_append, if_neg]
  · rfl
  · intro hnil
    rw [List.isEmpty_iff, List.dropWhile_eq_nil_iff] at hnil
    exact hne (by simpa using hnil x hx)

/-- A text that ends in a byte to be trimmed, with one byte more behind it. -/
theorem cString_wspTrimEnd_concat (hc : trimmedAtEnd c = true) (x : UInt8) :
    cString (wspTrimEnd (a ++ [c] ++ [x])) = wspTrimEnd (a ++ [c]) ↔
      0 ∉ wspTrimEnd (a ++ [c]) ∧
        (trimmedAtEnd x = true ∨ (a ++ [c])[(wspTrimEnd (a ++ [c])).length]? = some 0) := by
  by_cases hx : trimmedAtEnd x = true
  · have htrim : wspTrimEnd (a ++ [c] ++ [x]) = wspTrimEnd (a ++ [c]) :=
      List.rdropWhile_concat_pos _ _ _ hx
    rw [htrim, cString_eq_self_iff]
    exact ⟨fun h => ⟨h, .inl hx⟩, And.left⟩
  have htrim : wspTrimEnd (a ++ [c] ++ [x]) = a ++ [c] ++ [x] := List.rdropWhile_concat_neg _ _ _ hx
  obtain ⟨rest, hrest⟩ : wspTrimEnd (a ++ [c]) <+: a ++ [c] := List.rdropWhile_prefix _ _
  have hshort : (wspTrimEnd (a ++ [c])).length ≤ a.length := by
    rw [show wspTrimEnd (a ++ [c]) = wspTrimEnd a from List.rdropWhile_concat_pos _ _ _ hc]
    exact (List.rdropWhile_prefix _ a).length_le
  rw [htrim]
  generalize wspTrimEnd (a ++ [c]) = text at hrest hshort ⊢
  rw [← hrest]
  cases rest with
  | nil =>
    have hlength := congrArg List.length hrest
    simp only [List.append_nil, List.length_append, List.length_singleton] at hlength
    omega
  | cons r rest =>
    have hnext : (text ++ r :: rest)[text.length]? = some r := by simp
    rw [hnext, List.append_assoc, List.cons_append]
    constructor
    · intro h
      have hnul : 0 ∉ text := h ▸ nul_notMem_cString _
      rw [cString_append hnul] at h
      refine ⟨hnul, .inr ?_⟩
      by_contra hr
      rw [cString_cons fun h0 => hr (congrArg some h0)] at h
      simpa using congrArg List.length h
    · rintro ⟨hnul, hzero | hzero⟩
      · exact absurd hzero hx
      · cases hzero
        rw [cString_append hnul]
        exact List.append_nil text

end Cut

namespace HeaderLine
variable {line : HeaderLine}

/-- The value has no NUL in it, and the byte behind the line is trimmed as well or lies
behind a NUL. -/
def ValueKept (line : HeaderLine) : Prop :=
  0 ∉ line.fieldValue ∧
    (trimmedAtEnd (line.outside line.bufferLength) = true ∨
      (wspTrimStart (line.bytes.drop (line.colon + 1)))[line.fieldValue.length]? = some 0)

/-- **When the value of a line is cut right.** -/
theorem value_eq_iff {name value : List UInt8}
    (hbytes : line.bytes = name ++ 58 :: (value ++ [13, 10])) :
    line.value = line.fieldValue ↔ line.ValueKept := by
  have hcolon : line.colon ≤ name.length := by
    rw [colon, hbytes, List.findIdx_append]
    split
    · exact List.findIdx_le_length
    · simp [List.findIdx_cons]
  have hlength : line.bufferLength = name.length + 1 + (value.length + 2) := by
    rw [bufferLength, hbytes]
    simp
    omega
  have hdrop : line.bytes.drop (line.colon + 1) =
      (name ++ 58 :: value).drop (line.colon + 1) ++ [13] ++ [10] := by
    rw [hbytes, show name ++ 58 :: (value ++ [13, 10]) = (name ++ 58 :: value) ++ [13, 10] by simp,
      List.drop_append_of_le_length (by simp; omega), List.append_assoc]
    rfl
  have hstart : wspTrimStart (line.bytes.drop (line.colon + 1)) =
      wspTrimStart ((name ++ 58 :: value).drop (line.colon + 1) ++ [13]) ++ [10] := by
    rw [hdrop]
    exact wspTrimStart_append ⟨13, by simp, by decide⟩
  have hrange : wspTrimStart line.valueRange =
      wspTrimStart (line.bytes.drop (line.colon + 1)) ++ [line.outside line.bufferLength] := by
    rw [valueRange_eq (by omega)]
    exact wspTrimStart_append ⟨13, by rw [hdrop]; simp, by decide⟩
  rw [ValueKept, HeaderLine.value, trimmedValue_eq, fieldValue, wspTrim, wspTrim, hrange, hstart]
  exact cString_wspTrimEnd_concat (by decide) _

end HeaderLine

/-! ## The slots of a response -/

/-- The text behind an element of `headerPairs`. -/
def CurlData.slotText (ctrl : CurlData) (i : Nat) : Option (List UInt8) :=
  (ctrl.headerPairs i).bind ctrl.headerText

section Slots
variable {o : Observed} {ctrl : CurlData} {block : ResponseBlock}

theorem CurlData.slotText_eq {ctrl ctrl' : CurlData} {i : Nat}
    (hpair : ctrl'.headerPairs i = ctrl.headerPairs i)
    (hvalue : ∀ block, ctrl.headerPairs i = some (.value block) →
      ctrl'.valueText block = ctrl.valueText block) : ctrl'.slotText i = ctrl.slotText i := by
  unfold CurlData.slotText
  rw [hpair]
  cases hi : ctrl.headerPairs i with
  | none => rfl
  | some ptr =>
    cases ptr with
    | value block => exact hvalue block hi
    | key name => rfl

/-- A header line shows its value and the name it is entered under, behind the last pair. -/
theorem Stored.slotText_header {line : HeaderLine} (h : Stored o) (hok : line.Allocated)
    (hs : line.isSpecial = false) (i : Nat) :
    (o.step line).ctrl.slotText i =
      if i = o.ctrl.headerPairCount * 2 then some line.value
      else if i = o.ctrl.headerPairCount * 2 + 1 then some (o.ctrl.owner line).chars
      else o.ctrl.slotText i := by
  have hafter : CurlData.AfterHeader line o.ctrl (o.ctrl.headerCallback line).1 :=
    (CurlData.headerCallback_header hs hok.2).1
  obtain ⟨hold, hnew⟩ := hafter.valueText
  have hpairs := hafter.headerPairs
  rw [CurlData.storeHeader_name] at hpairs
  rw [Observed.step_ctrl]
  generalize (o.ctrl.headerCallback line).1 = ctrl' at hold hnew hpairs ⊢
  by_cases hvalue : i = o.ctrl.headerPairCount * 2
  · rw [if_pos hvalue, CurlData.slotText, hpairs]
    dsimp only
    rw [if_pos hvalue]
    exact hnew
  rw [if_neg hvalue]
  by_cases hname : i = o.ctrl.headerPairCount * 2 + 1
  · rw [if_pos hname, CurlData.slotText, hpairs]
    dsimp only
    rw [if_neg hvalue, if_pos hname]
    rfl
  rw [if_neg hname]
  refine CurlData.slotText_eq ?_ fun block hi => hold block (h.older i block hi)
  rw [hpairs]
  dsimp only
  rw [if_neg hvalue, if_neg hname]

/-- Header lines leave the slots in front of theirs as they are. -/
theorem slotText_run : ∀ (lines : List HeaderLine) (o : Observed), Filled o →
    (∀ line ∈ lines, line.isSpecial = false ∧ line.Allocated) →
    o.ctrl.headerPairCount + lines.length ≤ 65535 → ∀ i < 2 * o.ctrl.headerPairCount,
      (o.run lines).ctrl.slotText i = o.ctrl.slotText i
  | [], _, _, _, _, _, _ => rfl
  | line :: lines, o, h, hlines, hle, i, hi => by
      obtain ⟨hs, hok⟩ := hlines line List.mem_cons_self
      have hafter : CurlData.AfterHeader line o.ctrl (o.ctrl.headerCallback line).1 :=
        (CurlData.headerCallback_header hs hok.2).1
      rw [List.length_cons] at hle
      have hcount : (o.step line).ctrl.headerPairCount = o.ctrl.headerPairCount + 1 := by
        rw [Observed.step_ctrl, hafter.headerPairCount]
        exact Nat.mod_eq_of_lt (by omega)
      have hslot := h.slotText_header hok hs i
      rw [if_neg (by omega), if_neg (by omega)] at hslot
      exact (slotText_run lines (o.step line) (h.header hok hs (by omega))
        (fun l hl => hlines l (List.mem_cons_of_mem _ hl)) (by omega) i (by omega)).trans hslot

/-- The handle when the line behind the first `j` header lines arrives. -/
def ResponseBlock.before (block : ResponseBlock) (ctrl : CurlData) (j : Nat) : CurlData :=
  ctrl.receive (block.statusLine :: block.headers.take j)

/-- The two slots of the `j`-th header line: its value, and the name of the entry it was
resolved to. -/
theorem slots_of_header (h : ctrl.IsReset) (hcolon : 58 ∉ block.statusLine.bytes)
    (hlen : block.headers.length < 65535) {j : Nat} {line : HeaderLine}
    (hline : block.headers[j]? = some line) :
    (ctrl.receive block.lines).slotText (2 * (j + 1)) = some line.value ∧
      (ctrl.receive block.lines).slotText (2 * (j + 1) + 1) =
        some ((block.before ctrl j).owner line).chars := by
  obtain ⟨hj, rfl⟩ := List.getElem?_eq_some_iff.mp hline
  have hok := block.statusLine_allocated
  have ht : block.statusLine.isStatusLine = true :=
    isStatusLine_of_http block.statusLine_bytes hcolon
  have hfirst := Filled.of_statusLine (Stored.start h) hok ht (.inr ⟨h.headerPairCount, rfl⟩)
  have hone := Filled.count_statusLine (Stored.start h) hok ht (.inr h.headerPairCount)
  have hheaders (l : HeaderLine) (hl : l ∈ block.headers) : l.isSpecial = false ∧ l.Allocated :=
    ⟨block.header_not_special hl, block.header_allocated hl⟩
  have hin : j < block.headers.length := hj
  -- The run up to the line, the line itself and the rest.
  obtain ⟨hfilled, -, hcount, -⟩ := Filled.run_headers (block.headers.take j) _ hfirst
    (fun l hl => hheaders l (List.mem_of_mem_take hl)) (by omega)
    (by rw [hone, List.length_take]; omega)
  have hbefore : block.before ctrl j =
      (((Observed.start ctrl).step block.statusLine).run (block.headers.take j)).ctrl :=
    (Observed.run_ctrl (block.statusLine :: block.headers.take j) (Observed.start ctrl)).symm
  have hrun : ctrl.receive block.lines =
      (((((Observed.start ctrl).step block.statusLine).run (block.headers.take j)).step
        block.headers[j]).run (block.headers.drop (j + 1)) |>.step block.blankLine).ctrl := by
    rw [show ctrl.receive block.lines = ((Observed.start ctrl).run block.lines).ctrl from
      (Observed.run_ctrl _ (Observed.start ctrl)).symm, ResponseBlock.run_lines]
    conv_lhs => rw [← List.take_append_drop j block.headers, List.drop_eq_getElem_cons hin]
    rw [Observed.run, Runs.run_append]
    rfl
  rw [hone, List.length_take, Nat.min_eq_left hin.le] at hcount
  rw [hrun, hbefore]
  generalize ((Observed.start ctrl).step block.statusLine).run (block.headers.take j) = o at *
  obtain ⟨hs, hlineOk⟩ := hheaders _ (List.getElem_mem hin)
  have hafter : CurlData.AfterHeader block.headers[j] o.ctrl
      (o.ctrl.headerCallback block.headers[j]).1 := (CurlData.headerCallback_header hs hlineOk.2).1
  have hnext : (o.step block.headers[j]).ctrl.headerPairCount = j + 2 := by
    rw [Observed.step_ctrl, hafter.headerPairCount, hcount, toUInt16]
    omega
  have hrest (i : Nat) (hi : i < 2 * (j + 2)) :
      (((o.step block.headers[j]).run (block.headers.drop (j + 1))).step
        block.blankLine).ctrl.slotText i = (o.step block.headers[j]).ctrl.slotText i := by
    rw [Observed.step_terminator (blank_isSpecial block.blankLine_bytes)
      (blank_not_isStatusLine block.blankLine_bytes)]
    exact slotText_run _ _ (hfilled.header hlineOk hs (by omega))
      (fun l hl => hheaders l (List.mem_of_mem_drop hl))
      (by rw [hnext, List.length_drop]; omega) i (by omega)
  constructor
  · rw [hrest _ (by omega), hfilled.slotText_header hlineOk hs, if_pos (by omega)]
  · rw [hrest _ (by omega), hfilled.slotText_header hlineOk hs, if_neg (by omega), if_pos (by omega)]

end Slots

/-! ## Reading by position -/

/-- Two texts of which every platform makes the same string are the same. -/
theorem eq_of_resultString {a b : List UInt8}
    (h : ∀ platform : Platform, platform.resultString true a = platform.resultString true b) :
    a = b := by
  have hlatin (text : List UInt8) :
      latinPlatform.resultString true text = some (text.map (·.toUInt16)) := by
    unfold Platform.resultString
    split
    · simp [Platform.headerToString, Platform.jchar, latinPlatform]
    · rfl
  have hsame := h latinPlatform
  rw [hlatin, hlatin, Option.some_inj] at hsame
  have hinj : Function.Injective UInt8.toUInt16 := fun x y hxy => by
    rw [← UInt8.toUInt8_toUInt16 x, hxy, UInt8.toUInt8_toUInt16]
  exact hinj.list_map hsame

section Position
variable {ctrl : CurlData} {block : ResponseBlock}

/-- The position can be read: it is one of the response; the status line has no NUL in its text;
the value of a header line is cut right, and the entry its name is found under when it
arrives, if there is one, has the same name. -/
def ResponseBlock.ReadableAt (block : ResponseBlock) (ctrl : CurlData) : Nat → Prop
  | 0 => 0 ∉ block.statusText
  | j + 1 => ∃ line, block.headers[j]? = some line ∧ line.ValueKept ∧
      equalsIgnoringCase ((block.before ctrl j).owner line).chars (wspTrimEnd line.fieldName) = true

theorem header_by_number (platform : Platform) (hcount : ctrl.headerPairCount ≠ 0) (n : Int) :
    ctrl.header platform true none n (fun _ => 0) =
      ((ctrl.specialSlot n).bind ctrl.slotText).bind (platform.resultString true) := by
  rw [CurlData.header, CurlData.getHeader, if_neg hcount]
  rfl

/-- The slots the two calls look at. -/
theorem specialSlot_of_lt {pos : Nat} (hpos : 0 < pos) (hlt : pos < ctrl.headerPairCount) :
    ctrl.specialSlot pos = some (2 * pos) := by
  rw [CurlData.specialSlot, if_neg (by omega), if_pos (by omega)]
  exact congrArg some (by omega)

/-- A number that is not positive passes the check of any handle. -/
theorem specialSlot_neg (hcount : ctrl.headerPairCount ≠ 0) (pos : Nat) :
    ctrl.specialSlot (-pos) = some (2 * pos + 1) := by
  rw [CurlData.specialSlot, if_neg (by omega), if_neg (by omega)]
  exact congrArg some (by omega)

/-- **What is read by position is what the position has**, up to the last line and no
further: from a reset handle, after a head whose status line has no colon and that has
fewer than 65535 header lines. -/
theorem positional_access_iff (h : ctrl.IsReset) (block : ResponseBlock)
    (hcolon : 58 ∉ block.statusLine.bytes) (hlen : block.headers.length < 65535) (pos : Nat) :
    PositionalAccess block (ctrl.receive block.lines) pos ↔ block.ReadableAt ctrl pos := by
  have hslots {j : Nat} {line : HeaderLine} (hline : block.headers[j]? = some line) :=
    slots_of_header h hcolon hlen hline
  obtain ⟨-, -, hcount, hone⟩ := run_recognised (Stored.start h)
    (.inr ⟨h.headerPairCount, rfl⟩) hcolon hlen
  rw [Observed.run_ctrl] at hcount hone
  have hstatus : (ctrl.receive block.lines).slotText 1 = some (cString block.statusText) := by
    rw [CurlData.slotText, show (ctrl.receive block.lines).headerPairs 1 = _ from hone,
      ← key_statusLine hcolon]
    rfl
  change (ctrl.receive block.lines).headerPairCount = _ at hcount
  generalize ctrl.receive block.lines = after at *
  have hne : after.headerPairCount ≠ 0 := by omega
  cases pos with
  | zero =>
    have hslot : after.specialSlot (0 : Nat) = some 1 := specialSlot_neg hne 0
    have hvalue (platform : Platform) : after.getResponseHeader platform 0 =
        platform.resultString true (cString block.statusText) := by
      rw [CurlData.getResponseHeader, header_by_number platform hne, hslot, Option.bind_some, hstatus]
      rfl
    constructor
    · intro hread
      refine cString_eq_self_iff.mp (eq_of_resultString fun platform => ?_)
      exact (hvalue platform).symm.trans (hread.value platform)
    · intro hnul
      refine ⟨fun platform => ?_, ⟨none, .none, fun _ => rfl⟩, fun n hn slot hs => ?_⟩
      · rw [hvalue platform, cString_eq_self_iff.mpr hnul]
        rfl
      · rw [show n = (0 : Nat) by omega, hslot] at hs
        cases hs
        omega
  | succ j =>
    cases hline : block.headers[j]? with
    | none =>
      have hj : block.headers.length ≤ j := List.getElem?_eq_none_iff.mp hline
      constructor
      · intro hread
        have hslot := hread.slots _ (.inr rfl) _ (specialSlot_neg hne (j + 1))
        omega
      · rintro ⟨line, hsome, -⟩
        cases hline.symm.trans hsome
    | some line =>
      have hj : j < block.headers.length := (List.getElem?_eq_some_iff.mp hline).1
      obtain ⟨name, value, hbytes⟩ := block.headers_bytes line (List.mem_of_getElem? hline)
      obtain ⟨hvalueSlot, hkeySlot⟩ := hslots hline
      have hvalue (platform : Platform) : after.getResponseHeader platform (j + 1) =
          platform.resultString true line.value := by
        rw [CurlData.getResponseHeader, header_by_number platform hne,
          specialSlot_of_lt (Nat.succ_pos j) (by omega), Option.bind_some, hvalueSlot]
        rfl
      have hkey (platform : Platform) : after.getResponseHeaderKey platform (j + 1) =
          platform.resultString true ((block.before ctrl j).owner line).chars := by
        rw [CurlData.getResponseHeaderKey, if_neg (Nat.succ_ne_zero j), header_by_number platform hne,
          specialSlot_neg hne, Option.bind_some, hkeySlot]
        rfl
      have hvalueAt : block.valueAt (j + 1) = some line.fieldValue := by
        rw [ResponseBlock.valueAt, hline]
        rfl
      have hnameAt : block.nameAt (j + 1) = some (wspTrimEnd line.fieldName) := by
        rw [ResponseBlock.nameAt, hline]
        rfl
      constructor
      · intro hread
        refine ⟨line, hline, (HeaderLine.value_eq_iff hbytes).mp ?_, ?_⟩
        · refine eq_of_resultString fun platform => ?_
          rw [← hvalue platform, hread.value platform, hvalueAt]
          rfl
        · obtain ⟨shown, hrel, hshown⟩ := hread.key
          rw [hnameAt] at hrel
          cases hrel with
          | some hsame =>
            rw [eq_of_resultString fun platform => (hkey platform).symm.trans (hshown platform)]
            exact hsame
      · rintro ⟨line', hline', hkept, hsame⟩
        cases hline.symm.trans hline'
        refine ⟨fun platform => ?_, ⟨some _, hnameAt ▸ .some hsame, hkey⟩, fun n hn slot hs => ?_⟩
        · rw [hvalue platform, hvalueAt, (HeaderLine.value_eq_iff hbytes).mpr hkept]
          rfl
        · rcases hn with rfl | rfl
          · rw [specialSlot_of_lt (Nat.succ_pos j) (by omega)] at hs
            cases hs
            omega
          · rw [specialSlot_neg hne] at hs
            cases hs
            omega

/-- The header of a redirect, by its position. -/
theorem positional_access_redirectBlock :
    PositionalAccess redirectBlock (nativeCreate.receive redirectBlock.lines) 1 :=
  (positional_access_iff CurlData.isReset_nativeCreate redirectBlock (by decide) (by decide) 1).mpr
    ⟨_, rfl, ⟨by decide, .inl (by decide)⟩, by decide⟩

/-- There is one header, and the name of a second one is read behind the array. -/
theorem not_positional_access :
    (nativeCreate.receive redirectBlock.lines).headerPairCount = 2 ∧
      (nativeCreate.receive redirectBlock.lines).specialSlot (-2) = some 5 ∧
      ¬ PositionalAccess redirectBlock (nativeCreate.receive redirectBlock.lines) 2 :=
  ⟨by decide, by decide, fun h => absurd (h.slots (-2) (.inr rfl) 5 (by decide)) (by decide)⟩

end Position

end Chttpc
