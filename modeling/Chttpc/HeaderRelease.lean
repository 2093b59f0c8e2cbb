import Chttpc.HeaderLengths

/-!
# What `releaseHeaders` gives back

`header_callback` allocates a block for each line it stores, and only `releaseHeaders`
frees one: behind the status line of a new response, in `reset`, and in `dispose`.  Its
index runs over the flat array of values and names in steps of two, and stops at the
number of pairs.  Of `n` pairs it meets the first half, so a store of one pair is the
largest one it gives back whole.

A run is made of lines and calls of `reset`, in any order and with any outcome of the
allocations; `dispose` ends it.  What a run has lost never comes back: `Balanced` bounds
the blocks that have been freed, and that would be freed now, by those there are.
-/

namespace Chttpc

/-- What happens to the header store of a handle. -/
inductive StoreEvent
  | line (line : HeaderLine)
  | reset

namespace CurlData

/-- `Java_net_sf_chttpc_Curl_dispose`, as far as the response headers go. -/
def dispose (ctrl : CurlData) : CurlData :=
  ({ ctrl with headers := ctrl.headers.hashmapClear }).releaseHeaders

def afterEvent (ctrl : CurlData) : StoreEvent → CurlData
  | .line line => (ctrl.headerCallback line).1
  | .reset => ctrl.reset

/-- The handle after the events of a run. -/
def afterEvents (ctrl : CurlData) (events : List StoreEvent) : CurlData :=
  Runs.run afterEvent ctrl events

/-- The values of the counted pairs. -/
def storedSlots (ctrl : CurlData) : List (Option HeaderPtr) :=
  (List.range ctrl.headerPairCount).map fun j => ctrl.headerPairs (2 * j)

/-- The blocks `header_callback` has allocated. -/
def allocated (ctrl : CurlData) : List (Option HeaderPtr) :=
  (List.range ctrl.blocks.length).map fun block => some (.value block)

/-- Each block has been freed once, and nothing else has been freed. -/
def FreedOnce (ctrl : CurlData) : Prop := ctrl.freed.Perm ctrl.allocated

/-- The line finds no other one in the store: it stores nothing itself, it empties the
store, or the store is empty. -/
def StoredAlone (ctrl : CurlData) (line : HeaderLine) : Prop :=
  (line.isSpecial = true ∧ line.isStatusLine = false) ∨ ctrl.clears line = true ∨
    ctrl.headerPairCount = 0

/-! ## What is released -/

section Release
variable {ctrl : CurlData}

theorem length_releasedSlots : ctrl.releasedSlots.length = (ctrl.headerPairCount + 1) / 2 := by
  rw [releasedSlots, List.length_map, List.length_range]

theorem length_storedSlots : ctrl.storedSlots.length = ctrl.headerPairCount := by
  rw [storedSlots, List.length_map, List.length_range]

theorem length_allocated : ctrl.allocated.length = ctrl.blocks.length := by
  rw [allocated, List.length_map, List.length_range]

theorem releasedSlots_eq (h : ctrl.headerPairCount ≤ 1) : ctrl.releasedSlots = ctrl.storedSlots := by
  rw [releasedSlots, storedSlots, show (ctrl.headerPairCount + 1) / 2 = ctrl.headerPairCount by omega]

/-- **Half of the store is released.** -/
theorem releasedSlots_perm_iff :
    ctrl.releasedSlots.Perm ctrl.storedSlots ↔ ctrl.headerPairCount ≤ 1 := by
  constructor
  · intro h
    have hlength := h.length_eq
    rw [length_releasedSlots, length_storedSlots] at hlength
    omega
  · intro h
    rw [releasedSlots_eq h]

end Release

/-! ## What a line does to the blocks -/

section Line
variable {line : HeaderLine} {ctrl : CurlData}

/-- The number of pairs a line finds in the store. -/
def foundCount (ctrl : CurlData) (line : HeaderLine) : Nat :=
  if ctrl.clears line then 0 else ctrl.headerPairCount

/-- What a line that is stored does to the blocks, whether its pair can be written or not. -/
structure AddsBlock (line : HeaderLine) (before after : CurlData) : Prop where
  blocks : after.blocks.length = before.blocks.length + 1
  freed : after.freed = before.freed ++ if before.clears line then before.releasedSlots else []
  count_le : after.headerPairCount ≤ before.foundCount line + 1

theorem headersEnsureCapacity_room {ok : Bool} {n : Nat} (h : n ≤ ctrl.headerBufSize) :
    ctrl.headersEnsureCapacity ok n = (ctrl, false) := if_pos h

theorem headersEnsureCapacity_fields (ok : Bool) (n : Nat) :
    (ctrl.headersEnsureCapacity ok n).1.freed = ctrl.freed ∧
      (ctrl.headersEnsureCapacity ok n).1.headerPairCount = ctrl.headerPairCount ∧
      (ctrl.headersEnsureCapacity ok n).1.headerPairs = ctrl.headerPairs := by
  unfold headersEnsureCapacity
  split
  · exact ⟨rfl, rfl, rfl⟩
  · dsimp only
    split <;> exact ⟨rfl, rfl, rfl⟩

/-- The end of the callback frees nothing, and counts at most one more pair. -/
theorem appendPair_ledger {statusLine : Bool} {old block base : Nat} {name : CString}
    (hcount : ctrl.headerPairCount ≤ base) (hold : statusLine = true → old ≤ base) :
    (ctrl.appendPair line statusLine old block name).1.freed = ctrl.freed ∧
      (ctrl.appendPair line statusLine old block name).1.headerPairCount ≤ base + 1 := by
  obtain ⟨hfreed, hpairs, -⟩ :=
    ctrl.headersEnsureCapacity_fields line.reallocOk (ctrl.headerPairCount + 1)
  have hle : ∀ n, toUInt16 n ≤ n := fun n => Nat.mod_le _ _
  unfold appendPair
  dsimp only
  split
  · refine ⟨hfreed, ?_⟩
    show (ctrl.headersEnsureCapacity line.reallocOk _).1.headerPairCount ≤ base + 1
    omega
  · cases statusLine with
    | false =>
      refine ⟨hfreed, Nat.le_trans (hle _) ?_⟩
      show (ctrl.headersEnsureCapacity line.reallocOk _).1.headerPairCount + 1 ≤ base + 1
      omega
    | true => exact ⟨hfreed, Nat.le_trans (hle _) (Nat.succ_le_succ (hold rfl))⟩

/-- With room in the array the pair is written, and no allocation is asked for. -/
theorem appendPair_room {statusLine : Bool} {old block : Nat} {name : CString}
    (h : ctrl.headerPairCount + 1 ≤ ctrl.headerBufSize) :
    (ctrl.appendPair line statusLine old block name).1 =
      { ctrl.writePair block name with
        headerPairCount := toUInt16 ((if statusLine then old else ctrl.headerPairCount) + 1) } := by
  rw [appendPair, headersEnsureCapacity_room h]
  cases statusLine <;> rfl

theorem clears_of_header (h : line.isSpecial = false) : ctrl.clears line = false := by
  have hs : line.isStatusLine = false := by
    by_contra hne
    rw [isSpecial_of_isStatusLine (eq_true_of_ne_false hne)] at h
    cases h
  rw [clears, hs, Bool.false_and]

theorem clears_of_statusLine (h : line.isStatusLine = true) :
    ctrl.clears line = ctrl.state.seenHeaderEnd := by
  rw [clears, h, Bool.true_and]

theorem entered_fields :
    (ctrl.entered line).freed = ctrl.freed ∧
      (ctrl.entered line).headerPairCount = ctrl.headerPairCount ∧
      (ctrl.entered line).headerPairs = ctrl.headerPairs ∧
      (ctrl.entered line).headerBufSize = ctrl.headerBufSize ∧
      (ctrl.entered line).env = ctrl.env := by
  unfold entered
  rw [storeHeader_eq]
  exact ⟨rfl, rfl, rfl, rfl, rfl⟩

/-- A header line enters its value, and appends its pair. -/
theorem headerCallback_entered (ctrl : CurlData) (h : line.isSpecial = false) :
    ∃ maxHeaderLength name, ctrl.headerCallback line =
      ({ ctrl.entered line with maxHeaderLength } : CurlData).appendPair line false 0
        ctrl.blocks.length name := by
  unfold headerCallback
  rw [if_neg (by rw [h]; decide)]
  dsimp only
  rw [noteLength_eq, noteLength_eq]
  exact ⟨_, _, rfl⟩

/-- A status line appends its pair in front of all others. -/
theorem headerCallback_begins (h : line.isStatusLine = true) :
    ctrl.headerCallback line =
      ((ctrl.beginResponse.setCount 0).copyLine line).appendPair line true
        ctrl.beginResponse.headerPairCount ctrl.blocks.length (line.name ctrl.blocks.length) := by
  unfold headerCallback
  rw [if_pos (isSpecial_of_isStatusLine h), if_pos h]
  dsimp only
  rw [show (ctrl.beginResponse.setCount 0).blocks = ctrl.blocks from beginResponse_blocks]

theorem beginResponse_foundCount (h : line.isStatusLine = true) :
    ctrl.beginResponse.headerPairCount = ctrl.foundCount line := by
  rw [beginResponse_headerPairCount, foundCount, clears_of_statusLine h]

theorem beginResponse_freed (h : line.isStatusLine = true) :
    ctrl.beginResponse.freed =
      ctrl.freed ++ if ctrl.clears line then ctrl.releasedSlots else [] := by
  rw [clears_of_statusLine h]
  unfold beginResponse
  split
  · rfl
  · rw [List.append_nil]

/-- **What a stored line does to the blocks.** -/
theorem addsBlock (ctrl : CurlData) (h : line.isSpecial = false ∨ line.isStatusLine = true) :
    AddsBlock line ctrl (ctrl.headerCallback line).1 := by
  rcases h with h | h
  · obtain ⟨hfreed, hcount, -⟩ := @entered_fields line ctrl
    have hclears : ctrl.clears line = false := clears_of_header h
    refine ⟨?_, ?_, ?_⟩
    · rw [(headerCallback_enters h).2.1, length_blocks_entered]
    all_goals
      obtain ⟨maxHeaderLength, name, hcall⟩ := headerCallback_entered ctrl h
      have hledger := @appendPair_ledger line { ctrl.entered line with maxHeaderLength } false 0
        ctrl.blocks.length ctrl.headerPairCount name (Nat.le_of_eq hcount) nofun
      rw [hcall]
    · rw [hledger.1, hclears]
      exact hfreed.trans (List.append_nil _).symm
    · rw [foundCount, hclears]
      exact hledger.2
  · have hledger := @appendPair_ledger line ((ctrl.beginResponse.setCount 0).copyLine line) true
      ctrl.beginResponse.headerPairCount ctrl.blocks.length ctrl.beginResponse.headerPairCount
      (line.name ctrl.blocks.length) (Nat.zero_le _) (fun _ => Nat.le_refl _)
    rw [headerCallback_begins h]
    refine ⟨?_, ?_, ?_⟩
    · rw [(appendPair_store _ _ _ _).2.1, length_copyLine]
      exact congrArg (·.length + 1) beginResponse_blocks
    · exact hledger.1.trans (beginResponse_freed h)
    · exact (beginResponse_foundCount h) ▸ hledger.2

/-- A line that finds no other one in the store takes its first pair. -/
theorem storesAlone (ctrl : CurlData) (h : line.isSpecial = false ∨ line.isStatusLine = true)
    (halone : ctrl.foundCount line = 0) (hsize : 0 < ctrl.headerBufSize) :
    (ctrl.headerCallback line).1.headerPairs 0 = some (.value ctrl.blocks.length) ∧
      (ctrl.headerCallback line).1.headerPairCount = 1 ∧
      (ctrl.headerCallback line).1.headerBufSize = ctrl.headerBufSize := by
  rcases h with h | h
  · obtain ⟨-, hcount, -, hbuf, -⟩ := @entered_fields line ctrl
    obtain ⟨maxHeaderLength, name, hcall⟩ := headerCallback_entered ctrl h
    rw [foundCount, clears_of_header h] at halone
    have hzero : (ctrl.entered line).headerPairCount = 0 := hcount.trans halone
    rw [hcall, appendPair_room (by dsimp only; omega)]
    refine ⟨?_, ?_, hbuf⟩
    · show (if 0 = (ctrl.entered line).headerPairCount * 2 then _ else _) = _
      rw [hzero, if_pos rfl]
    · show toUInt16 ((ctrl.entered line).headerPairCount + 1) = 1
      rw [hzero]
      rfl
  · have hroom : ((ctrl.beginResponse.setCount 0).copyLine line).headerPairCount + 1 ≤
        ((ctrl.beginResponse.setCount 0).copyLine line).headerBufSize := by
      show 0 + 1 ≤ ctrl.beginResponse.headerBufSize
      rw [beginResponse_headerBufSize]
      exact hsize
    rw [headerCallback_begins h, appendPair_room hroom, beginResponse_foundCount h, halone]
    exact ⟨rfl, rfl, beginResponse_headerBufSize⟩

end Line

/-! ## Runs -/

/-- There are blocks that have not been freed and would not be freed now. -/
def Loses (ctrl : CurlData) : Prop :=
  ctrl.freed.length + ctrl.releasedSlots.length < ctrl.blocks.length

/-- What has not been freed is in the store, in its only pair. -/
structure Whole (ctrl : CurlData) : Prop where
  held : (ctrl.freed ++ ctrl.storedSlots).Perm ctrl.allocated
  count_le : ctrl.headerPairCount ≤ 1
  bufSize_pos : 0 < ctrl.headerBufSize

/-- The event does not bring two lines together. -/
def KeepsApart (ctrl : CurlData) : StoreEvent → Prop
  | .line line => ctrl.StoredAlone line
  | .reset => True

section Runs
variable {ctrl : CurlData} {line : HeaderLine} {event : StoreEvent}

/-- A line is stored, or it is the end of a head and touches no block. -/
theorem stored_or_terminator (line : HeaderLine) :
    (line.isSpecial = false ∨ line.isStatusLine = true) ∨
      (line.isSpecial = true ∧ line.isStatusLine = false) := by
  cases line.isSpecial <;> cases line.isStatusLine <;> simp

theorem foundCount_le : ctrl.foundCount line ≤ ctrl.headerPairCount := by
  unfold foundCount
  split
  · exact Nat.zero_le _
  · exact Nat.le_refl _

theorem foundCount_of_alone (h : line.isSpecial = false ∨ line.isStatusLine = true)
    (halone : ctrl.StoredAlone line) : ctrl.foundCount line = 0 := by
  rcases halone with ⟨hs, ht⟩ | hclears | hcount
  · rw [hs, ht] at h
    rcases h with h | h <;> cases h
  · exact if_pos hclears
  · exact Nat.le_zero.mp (hcount ▸ foundCount_le)

/-- A line that clears the store frees what `releaseHeaders` would have freed, and another
one leaves that to come. -/
theorem length_freed (h : AddsBlock line ctrl (ctrl.headerCallback line).1) :
    (ctrl.headerCallback line).1.freed.length + (ctrl.foundCount line + 1) / 2 =
      ctrl.freed.length + (ctrl.headerPairCount + 1) / 2 := by
  rw [h.freed, foundCount, List.length_append]
  split
  · rw [length_releasedSlots]
    rfl
  · rw [List.length_nil, Nat.add_zero]

/-- **What is lost stays lost.** -/
theorem Loses.step (h : Loses ctrl) (event : StoreEvent) : Loses (ctrl.afterEvent event) := by
  unfold Loses at h ⊢
  rw [length_releasedSlots] at h ⊢
  cases event with
  | reset =>
    change (ctrl.freed ++ ctrl.releasedSlots).length + (0 + 1) / 2 < ctrl.blocks.length
    rw [List.length_append, length_releasedSlots]
    exact h
  | line line =>
    rcases stored_or_terminator line with hstored | hterm
    · have hadds := addsBlock ctrl hstored
      have hfreed := length_freed hadds
      have hblocks := hadds.blocks
      have hcount := hadds.count_le
      show (ctrl.headerCallback line).1.freed.length +
        ((ctrl.headerCallback line).1.headerPairCount + 1) / 2 <
          (ctrl.headerCallback line).1.blocks.length
      omega
    · rw [afterEvent, headerCallback_terminator hterm.1 hterm.2]
      exact h

theorem Loses.run (h : Loses ctrl) (events : List StoreEvent) :
    Loses (ctrl.afterEvents events) :=
  @Runs.run_invariant _ _ Loses (fun _ => True) afterEvent (fun _ event hs _ => hs.step event) events
    ctrl h fun _ _ => trivial

theorem Whole.length_held (h : Whole ctrl) :
    ctrl.freed.length + ctrl.headerPairCount = ctrl.blocks.length := by
  have hlength := h.held.length_eq
  rwa [List.length_append, length_storedSlots, length_allocated] at hlength

theorem Whole.not_loses (h : Whole ctrl) : ¬ Loses ctrl := by
  have hlength := h.length_held
  have hcount := h.count_le
  rw [Loses, length_releasedSlots]
  omega

theorem storedSlots_nil (h : ctrl.headerPairCount = 0) : ctrl.storedSlots = [] := by
  rw [storedSlots, h]
  rfl

theorem Whole.reset (h : Whole ctrl) : Whole ctrl.reset where
  held := by
    show (ctrl.freed ++ ctrl.releasedSlots ++ []).Perm ctrl.allocated
    rw [List.append_nil, releasedSlots_eq h.count_le]
    exact h.held
  count_le := Nat.zero_le _
  bufSize_pos := h.bufSize_pos

/-- A line that finds no other one is held in the only pair. -/
theorem Whole.afterLine (h : Whole ctrl) (halone : ctrl.StoredAlone line) :
    Whole (ctrl.headerCallback line).1 := by
  rcases stored_or_terminator line with hstored | hterm
  swap
  · rw [headerCallback_terminator hterm.1 hterm.2]
    exact ⟨h.held, h.count_le, h.bufSize_pos⟩
  have hadds := addsBlock ctrl hstored
  have hfound := foundCount_of_alone hstored halone
  obtain ⟨hfirst, hcount, hbuf⟩ := storesAlone ctrl hstored hfound h.bufSize_pos
  have hslots : (ctrl.headerCallback line).1.storedSlots = [some (.value ctrl.blocks.length)] := by
    rw [storedSlots, hcount]
    exact congrArg (fun slot => [slot]) hfirst
  -- what the line has found in the store is freed now, or there was nothing
  have hfreed : (ctrl.headerCallback line).1.freed = ctrl.freed ++ ctrl.storedSlots := by
    rw [hadds.freed]
    by_cases hclears : ctrl.clears line = true
    · rw [if_pos hclears, releasedSlots_eq h.count_le]
    · rw [if_neg hclears, storedSlots_nil]
      rwa [foundCount, if_neg hclears] at hfound
  refine ⟨?_, Nat.le_of_eq hcount, hbuf ▸ h.bufSize_pos⟩
  rw [hslots, hfreed, allocated, hadds.blocks, List.range_succ, List.map_append]
  exact h.held.append_right _

theorem Whole.step (h : Whole ctrl) (hapart : ctrl.KeepsApart event) :
    Whole (ctrl.afterEvent event) := by
  cases event with
  | line line => exact h.afterLine hapart
  | reset => exact h.reset

/-- **A line that joins another one is one too many** for `releaseHeaders`. -/
theorem Whole.loses (h : Whole ctrl) (hjoins : ¬ ctrl.KeepsApart event) :
    Loses (ctrl.afterEvent event) := by
  cases event with
  | reset => exact absurd trivial hjoins
  | line line =>
    simp only [KeepsApart, StoredAlone, not_or] at hjoins
    obtain ⟨hterm, hclears, hcount⟩ := hjoins
    have hadds := addsBlock ctrl ((stored_or_terminator line).resolve_right hterm)
    have hlength := length_freed hadds
    have hblocks := hadds.blocks
    have hadded := hadds.count_le
    have hwhole := h.length_held
    have hone := h.count_le
    have hfound : ctrl.foundCount line = ctrl.headerPairCount := if_neg hclears
    show (ctrl.headerCallback line).1.freed.length +
      (ctrl.headerCallback line).1.releasedSlots.length < (ctrl.headerCallback line).1.blocks.length
    rw [length_releasedSlots]
    omega

theorem Whole.freedOnce (h : Whole ctrl) : FreedOnce ctrl.dispose := by
  show (ctrl.freed ++ ctrl.releasedSlots).Perm ctrl.allocated
  rw [releasedSlots_eq h.count_le]
  exact h.held

theorem FreedOnce.not_loses (h : FreedOnce ctrl.dispose) : ¬ Loses ctrl := by
  have hlength := h.length_eq
  rw [length_allocated] at hlength
  change (ctrl.freed ++ ctrl.releasedSlots).length = ctrl.blocks.length at hlength
  rw [List.length_append] at hlength
  exact Nat.not_lt.mpr (Nat.le_of_eq hlength.symm)

theorem whole_nativeCreate : Whole nativeCreate := ⟨List.Perm.nil, by decide, by decide⟩

end Runs

/-- What holds of a whole store and of none that has lost a block holds throughout a run
exactly if its lines keep apart. -/
theorem throughout_iff {P : CurlData → Prop} (hP : ∀ ctrl, Whole ctrl → P ctrl)
    (hloses : ∀ ctrl, Loses ctrl → ¬ P ctrl) (events : List StoreEvent) :
    (∀ before, before <+: events → P (nativeCreate.afterEvents before)) ↔
      ∀ before line, before ++ [.line line] <+: events →
        (nativeCreate.afterEvents before).StoredAlone line := by
  have hiff := Runs.holds_throughout_iff (I := Whole) (P := P) (C := KeepsApart)
    (fun _ _ => True) afterEvent hP (fun _ _ h _ hapart => h.step hapart)
    (fun _ _ h _ hjoins => hloses _ (h.loses hjoins)) events nativeCreate whole_nativeCreate
    fun _ _ _ => trivial
  refine hiff.trans ⟨fun h before line hpre => h before (.line line) hpre, ?_⟩
  intro h before event hpre
  cases event with
  | line line => exact h before line hpre
  | reset => trivial

/-- **When the blocks of the headers are all freed.**  Whatever is in the store,
`releaseHeaders` frees the values of all its pairs exactly if there is at most one pair.
Over a run of lines and calls of `reset` on a new handle, with `dispose` at its end, each
block is freed once exactly if no line is stored while another one is. -/
theorem freed_once_iff (ctrl : CurlData) (events : List StoreEvent) :
    (ctrl.releasedSlots.Perm ctrl.storedSlots ↔ ctrl.headerPairCount ≤ 1) ∧
      (FreedOnce (nativeCreate.afterEvents events).dispose ↔
        ∀ before line, before ++ [.line line] <+: events →
          (nativeCreate.afterEvents before).StoredAlone line) := by
  refine ⟨releasedSlots_perm_iff, ?_⟩
  constructor
  · intro hfreed
    refine (throughout_iff (fun _ => Whole.not_loses) (fun _ => not_not_intro) events).mp ?_
    -- what a beginning of the run had lost would still be lost at its end
    rintro before ⟨rest, rfl⟩ hloses
    refine hfreed.not_loses ?_
    rw [afterEvents, Runs.run_append]
    exact hloses.run rest
  · intro halone
    exact (throughout_iff (P := fun ctrl => FreedOnce ctrl.dispose) (fun _ => Whole.freedOnce)
      (fun _ hloses hfreed => hfreed.not_loses hloses) events).mpr halone events (List.prefix_refl _)

/-- A status line and one header line: the block of the header line is never freed, by the
`dispose` of the handle least of all. -/
theorem not_freed_once :
    ¬ FreedOnce (nativeCreate.afterEvents
      [.line (.ofBytes (ascii "HTTP/1.1 200 OK\r\n")), .line (.ofBytes (ascii "a:1\r\n")),
        .line (.ofBytes (ascii "\r\n")), .reset]).dispose := by
  intro h
  refine h.not_loses ?_
  unfold Loses
  decide

end CurlData

end Chttpc
