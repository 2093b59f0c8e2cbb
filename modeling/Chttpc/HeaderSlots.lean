import Chttpc.HeaderRings

/-!
# The pair array and its counter

`headerPairs` is to hold one pair of pointers for each line accepted since the
headers were last cleared, and `headerPairCount` is to count them.  Two kinds of
lines break this.  A status line overwrites slot 0 and still increments the
count, which is right only if the array was empty: a second status line before
the end of the head, or one behind header lines, drops the pair of slot 0 and
counts a pair that nobody wrote.  And the count is a `uint16_t`, so the line that
meets it at 65535 takes it back to zero.

`FitsSlots` excludes the two, and under it slot `j` is the pair of the `j`-th
line (`Filled`).  `slots_written_iff` says that a run stays inside the array,
with every counted pair written and no line dropped, exactly when all its lines
fit.
-/

namespace Chttpc

/-- Every counted pair has been written since the headers were cleared, no line
accepted since is missing, and the readers of the array touch written elements
only. -/
structure SlotsWritten (o : Observed) : Prop where
  inBounds : o.ctrl.headerPairCount ≤ o.ctrl.headerBufSize
  written : ∀ j < o.ctrl.headerPairCount,
    (∃ block, o.ctrl.headerPairs (2 * j) = some (.value block) ∧ o.since ≤ block) ∧
      ∃ name, o.ctrl.headerPairs (2 * j + 1) = some (.key name) ∧ o.since < name.addr
  notDropped : ∀ block, o.since ≤ block → block < o.ctrl.blocks.length →
    ∃ j < o.ctrl.headerPairCount, o.ctrl.headerPairs (2 * j) = some (.value block)
  special : ∀ n : Int, 0 ≤ n → n < o.ctrl.headerPairCount →
    ∃ slot ptr, o.ctrl.specialSlot n = some slot ∧ o.ctrl.headerPairs slot = some ptr
  released : ∀ ptr ∈ o.ctrl.releasedSlots, ptr.isSome = true

/-- The line does not break the array: a status line comes after the end of a
head or first of all, and a header line does not wrap the counter. -/
def FitsSlots (ctrl : CurlData) (line : HeaderLine) : Prop :=
  (line.isStatusLine = true → ctrl.state.seenHeaderEnd = true ∨ ctrl.headerPairCount = 0) ∧
    (line.isSpecial = false → ctrl.headerPairCount < 65535)

/-- Slot `j` is the pair of the `j`-th line accepted since the headers were
cleared, and what lies behind the counted slots is older. -/
structure Filled (o : Observed) : Prop extends Stored o where
  inBounds : o.ctrl.headerPairCount ≤ o.ctrl.headerBufSize
  count_eq : o.since + o.ctrl.headerPairCount = o.ctrl.blocks.length
  value : ∀ j < o.ctrl.headerPairCount,
    o.ctrl.headerPairs (2 * j) = some (.value (o.since + j))
  key : ∀ j < o.ctrl.headerPairCount,
    ∃ name, o.ctrl.headerPairs (2 * j + 1) = some (.key name) ∧ o.since < name.addr
  behind : ∀ i block, 2 * o.ctrl.headerPairCount ≤ i →
    o.ctrl.headerPairs i = some (.value block) → block < o.since

namespace Filled
variable {o : Observed} {line : HeaderLine}

theorem start {ctrl : CurlData} (h : ctrl.IsReset) : Filled (.start ctrl) where
  toStored := Stored.start h
  inBounds := by simp [Observed.start, h.headerPairCount]
  count_eq := by simp [Observed.start, h.headerPairCount]
  value := by simp [Observed.start, h.headerPairCount]
  key := by simp [Observed.start, h.headerPairCount]
  behind := fun i block _ hi => h.older i block hi

theorem slotsWritten (h : Filled o) : SlotsWritten o where
  inBounds := h.inBounds
  written := fun j hj => ⟨⟨_, h.value j hj, Nat.le_add_right _ _⟩, h.key j hj⟩
  notDropped := by
    intro block hge hlt
    have hcount := h.count_eq
    refine ⟨block - o.since, by omega, ?_⟩
    rw [h.value _ (by omega), Nat.add_sub_cancel' hge]
  special := by
    intro n h0 hn
    rw [CurlData.specialSlot, if_neg (by omega)]
    by_cases hpos : 0 < n
    · have hslot : (2 * n).toNat = 2 * n.toNat := by omega
      rw [if_pos hpos, hslot]
      exact ⟨_, _, rfl, h.value _ (by omega)⟩
    · have hslot : (-n * 2 + 1).toNat = 2 * 0 + 1 := by omega
      obtain ⟨name, hname, -⟩ := h.key 0 (by omega)
      rw [if_neg hpos, hslot]
      exact ⟨_, _, rfl, hname⟩
  released := by
    intro ptr hptr
    obtain ⟨i, hi, rfl⟩ := List.mem_map.mp hptr
    rw [List.mem_range] at hi
    rw [h.value i (by omega)]
    rfl

/-! ## Lines that fit -/

theorem terminator (h : Filled o) (hok : line.Allocated) (hs : line.isSpecial = true)
    (ht : line.isStatusLine = false) : Filled (o.step line) := by
  have hstored := h.toStored.step hok
  rw [Observed.step_terminator hs ht] at hstored ⊢
  exact ⟨hstored, h.inBounds, h.count_eq, h.value, h.key, h.behind⟩

/-- A status line that empties the array or finds it empty counts from one. -/
theorem count_statusLine (h : Stored o) (hok : line.Allocated) (ht : line.isStatusLine = true)
    (hempty : o.ctrl.state.seenHeaderEnd = true ∨ o.ctrl.headerPairCount = 0) :
    (o.step line).ctrl.headerPairCount = 1 := by
  have hcount : o.ctrl.beginResponse.headerPairCount = 0 := by
    rw [CurlData.beginResponse_headerPairCount]
    split
    · rfl
    · exact hempty.resolve_left ‹_›
  rw [Observed.step_ctrl, CurlData.headerCallback_statusLine ht hok.2 h.bufSize_pos]
  dsimp only
  rw [hcount]
  rfl

/-- A status line takes slot 0 of an array that is empty, or that it empties. -/
theorem of_statusLine (h : Stored o) (hok : line.Allocated) (ht : line.isStatusLine = true)
    (hempty : o.ctrl.state.seenHeaderEnd = true ∨
      (o.ctrl.headerPairCount = 0 ∧ o.since = o.ctrl.blocks.length)) :
    Filled (o.step line) := by
  have hstored := h.step hok
  have hsize := h.bufSize_pos
  have hcall := CurlData.headerCallback_statusLine ht hok.2 hsize
  have hone := count_statusLine h hok ht (hempty.imp_right And.left)
  rw [Observed.step_ctrl, hcall] at hone
  dsimp only at hone
  have hsince : (o.step line).since = o.ctrl.blocks.length := by
    cases hend : o.ctrl.state.seenHeaderEnd with
    | true => rw [Observed.step_clears ht hend]
    | false =>
      rw [hend] at hempty
      rw [Observed.step_statusLine ht hend]
      exact (hempty.resolve_left (by decide)).2
  rw [hone] at hcall
  refine ⟨hstored, ?_, ?_, ?_, ?_, ?_⟩
  all_goals rw [Observed.step_ctrl, hcall]
  · exact Nat.le_trans hsize (Nat.le_of_eq CurlData.beginResponse_headerBufSize.symm)
  · rw [hsince]
    simp
  · intro j hj
    rw [hsince, Nat.lt_one_iff.mp hj]
    simp
  · intro j hj
    rw [hsince, Nat.lt_one_iff.mp hj]
    exact ⟨line.name o.ctrl.blocks.length, by simp, Nat.lt_succ_self _⟩
  · intro i block hi hptr
    dsimp only at hi hptr
    rw [if_neg (by omega), if_neg (by omega)] at hptr
    rw [hsince]
    exact h.older i block hptr

/-- A header line takes the slot behind the last one. -/
theorem header (h : Filled o) (hok : line.Allocated) (hs : line.isSpecial = false)
    (hfit : o.ctrl.headerPairCount < 65535) : Filled (o.step line) := by
  have hstored := h.toStored.step hok
  have hafter : CurlData.AfterHeader line o.ctrl (o.ctrl.headerCallback line).1 :=
    (CurlData.headerCallback_header hs hok.2).1
  have hsince : (o.step line).since = o.since := by rw [Observed.step_header hs]
  have hcount : (o.step line).ctrl.headerPairCount = o.ctrl.headerPairCount + 1 := by
    rw [Observed.step_ctrl, hafter.headerPairCount]
    exact Nat.mod_eq_of_lt (by omega)
  have hblocks : (o.step line).ctrl.blocks.length = o.ctrl.blocks.length + 1 := by
    rw [Observed.step_ctrl, hafter.length_blocks]
  have hpairs := hafter.headerPairs
  rw [← Observed.step_ctrl] at hpairs
  have heq := h.count_eq
  refine ⟨hstored, ?_, ?_, ?_, ?_, ?_⟩
  · rw [hcount, Observed.step_ctrl, hafter.headerBufSize]
    split
    · assumption
    · rw [Nat.mod_eq_of_lt (by omega)]
      omega
  · rw [hsince, hcount, hblocks]
    omega
  · intro j hj
    rw [hcount] at hj
    rw [hpairs, hsince]
    dsimp only
    by_cases hlast : j = o.ctrl.headerPairCount
    · rw [if_pos (by omega)]
      exact congrArg (some ∘ HeaderPtr.value) (by omega)
    · rw [if_neg (by omega), if_neg (by omega)]
      exact h.value j (by omega)
  · intro j hj
    rw [hcount] at hj
    rw [hpairs, hsince]
    dsimp only
    by_cases hlast : j = o.ctrl.headerPairCount
    · rw [if_neg (by omega), if_pos (by omega), CurlData.storeHeader_name]
      exact ⟨_, rfl, h.owner_since line⟩
    · rw [if_neg (by omega), if_neg (by omega)]
      exact h.key j (by omega)
  · intro i block hi hptr
    rw [hcount] at hi
    rw [hpairs] at hptr
    dsimp only at hptr
    rw [if_neg (by omega), if_neg (by omega)] at hptr
    rw [hsince]
    exact h.behind i block (by omega) hptr

/-- A line that fits keeps the array filled. -/
theorem step (h : Filled o) (hok : line.Allocated) (hfit : FitsSlots o.ctrl line) :
    Filled (o.step line) := by
  cases hs : line.isSpecial with
  | true =>
    cases ht : line.isStatusLine with
    | true =>
      have heq := h.count_eq
      exact of_statusLine h.toStored hok ht ((hfit.1 ht).imp_right fun h0 => ⟨h0, by omega⟩)
    | false => exact h.terminator hok hs ht
  | false => exact h.header hok hs (hfit.2 hs)

/-! ## Lines that do not -/

/-- A status line inside a response drops the pair of slot 0. -/
theorem statusLine_drops (h : Filled o) (hok : line.Allocated) (ht : line.isStatusLine = true)
    (hend : o.ctrl.state.seenHeaderEnd = false) (hcount : o.ctrl.headerPairCount ≠ 0) :
    ¬ SlotsWritten (o.step line) := by
  intro hw
  have heq := h.count_eq
  have hcall := CurlData.headerCallback_statusLine ht hok.2 h.bufSize_pos
  have hbegin : o.ctrl.beginResponse.headerPairCount = o.ctrl.headerPairCount := by
    rw [CurlData.beginResponse_headerPairCount, if_neg (by simp [hend])]
  have hdropped := hw.notDropped o.since (by rw [Observed.step_statusLine ht hend])
    (by rw [Observed.step_ctrl, hcall]; simp; omega)
  rw [Observed.step_ctrl, hcall, hbegin] at hdropped
  dsimp only at hdropped
  obtain ⟨j, hj, hptr⟩ := hdropped
  have hle : toUInt16 (o.ctrl.headerPairCount + 1) ≤ o.ctrl.headerPairCount + 1 := Nat.mod_le _ _
  by_cases h0 : j = 0
  · rw [h0, if_pos rfl] at hptr
    have hblock : o.ctrl.blocks.length = o.since := HeaderPtr.value.inj (Option.some.inj hptr)
    omega
  · rw [if_neg (by omega), if_neg (by omega)] at hptr
    by_cases hlt : j < o.ctrl.headerPairCount
    · rw [h.value j hlt] at hptr
      have hblock : o.since + j = o.since := HeaderPtr.value.inj (Option.some.inj hptr)
      omega
    · exact Nat.lt_irrefl _ (h.behind _ _ (by omega) hptr)

/-- The line that wraps the counter is missing from the array. -/
theorem header_drops (h : Filled o) (hok : line.Allocated) (hs : line.isSpecial = false)
    (hcount : o.ctrl.headerPairCount = 65535) : ¬ SlotsWritten (o.step line) := by
  intro hw
  have hafter : CurlData.AfterHeader line o.ctrl (o.ctrl.headerCallback line).1 :=
    (CurlData.headerCallback_header hs hok.2).1
  have hsince : (o.step line).since = o.since := by rw [Observed.step_header hs]
  have hzero : (o.step line).ctrl.headerPairCount = 0 := by
    rw [Observed.step_ctrl, hafter.headerPairCount, hcount]
    rfl
  have hdropped := hw.notDropped o.ctrl.blocks.length (by rw [hsince]; exact h.since_le)
    (by rw [Observed.step_ctrl, hafter.length_blocks]; omega)
  rw [hzero] at hdropped
  obtain ⟨j, hj, -⟩ := hdropped
  exact Nat.not_lt_zero j hj

theorem step_drops (h : Filled o) (hok : line.Allocated) (hfit : ¬ FitsSlots o.ctrl line) :
    ¬ SlotsWritten (o.step line) := by
  have hlt := h.count_lt
  rw [FitsSlots, Classical.not_and_iff_not_or_not] at hfit
  rcases hfit with hfit | hfit
  · rw [Classical.not_imp, not_or] at hfit
    obtain ⟨ht, hend, hcount⟩ := hfit
    exact h.statusLine_drops hok ht (by simpa using hend) hcount
  · rw [Classical.not_imp] at hfit
    exact h.header_drops hok hfit.1 (by omega)

end Filled

/-- **When the pair array stays whole.**  In a run of `header_callback` from a
reset handle, every state reached has its counted pairs written since the last
clearing and no accepted line missing exactly when every line fits. -/
theorem slots_written_iff {ctrl : CurlData} (h : ctrl.IsReset) (lines : List HeaderLine)
    (hok : ∀ line ∈ lines, line.Allocated) :
    (∀ before, before <+: lines → SlotsWritten ((Observed.start ctrl).run before)) ↔
      ∀ before line, before ++ [line] <+: lines → FitsSlots (ctrl.receive before) line := by
  have hiff : (∀ before, before <+: lines → SlotsWritten ((Observed.start ctrl).run before)) ↔
      ∀ before line, before ++ [line] <+: lines →
        FitsSlots ((Observed.start ctrl).run before).ctrl line :=
    Runs.holds_throughout_iff (fun _ => HeaderLine.Allocated) Observed.step
      (fun _ ho => ho.slotsWritten)
      (fun _ _ ho hl hc => Filled.step ho hl hc) (fun _ _ ho hl hc => ho.step_drops hl hc)
      lines _ (Filled.start h) fun _ l hpre => hok l (Runs.mem_of_concat_prefix hpre)
  rw [hiff]
  simp only [Observed.run_ctrl]
  rfl

/-- The lines of a run that stays whole. -/
theorem slots_written_iff_response :
    (∀ before, before <+: [.ofBytes (ascii "HTTP/1.1 200 OK\r\n"), .ofBytes (ascii "a:1\r\n")] →
        SlotsWritten ((Observed.start nativeCreate).run before)) ↔
      ∀ before line, before ++ [line] <+:
        [.ofBytes (ascii "HTTP/1.1 200 OK\r\n"), .ofBytes (ascii "a:1\r\n")] →
        FitsSlots (nativeCreate.receive before) line :=
  slots_written_iff CurlData.isReset_nativeCreate _ (by simp [HeaderLine.Allocated, HeaderLine.ofBytes])

/-- Two status lines in a row count a pair that nobody has written. -/
theorem not_slots_written :
    ¬ ∀ lines : List HeaderLine, (∀ line ∈ lines, line.Allocated ∧ 2 ≤ line.bytes.length) →
      SlotsWritten ((Observed.start nativeCreate).run lines) := by
  intro h
  let line : HeaderLine := .ofBytes (ascii "HTTP/1.1 200 OK\r\n")
  have hok : ∀ l ∈ [line, line], l.Allocated ∧ 2 ≤ l.bytes.length := by
    intro l hl
    have hl : l = line := by simpa using hl
    rw [hl]
    exact ⟨⟨rfl, rfl⟩, by decide⟩
  have hcount : ((Observed.start nativeCreate).run [line, line]).ctrl.headerPairCount = 2 := by
    decide
  have hnone : ((Observed.start nativeCreate).run [line, line]).ctrl.headerPairs (2 * 1) = none :=
    rfl
  obtain ⟨⟨block, hptr, -⟩, -⟩ := (h [line, line] hok).written 1 (by rw [hcount]; decide)
  rw [hnone] at hptr
  cases hptr

end Chttpc
