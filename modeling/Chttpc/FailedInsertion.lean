import Chttpc.HeaderRelease

/-!
# A header line that cannot be stored

`header_callback` enters a line in the map first and asks for room in `headerPairs` behind
that.  If the array cannot be made longer it returns 0, and leaves the map as it is then:
with the new entry, or with the new value in the ring of an old one.

There is one case in which nothing has been entered: the name is new, and the entry for it
could not be allocated either.  `Intact` is what all stores keep, whatever fails.
-/

namespace Chttpc
open Hashmap CircularList

namespace CurlData

/-- `headers_ensure_capacity` fails when the callback asks it for room. -/
def growFails (ctrl : CurlData) (line : HeaderLine) : Bool :=
  (!line.isSpecial || line.isStatusLine) &&
    (ctrl.headersEnsureCapacity line.reallocOk
      ((if line.isStatusLine then 0 else ctrl.headerPairCount) + 1)).2

/-- The map with its rings, and the pairs with their count, are the same. -/
structure SameStore (before after : CurlData) : Prop where
  headers : after.headers = before.headers
  blocks : ∀ block < before.blocks.length, after.blocks[block]? = before.blocks[block]?
  headerPairs : after.headerPairs = before.headerPairs
  headerPairCount : after.headerPairCount = before.headerPairCount

/-- There is one pair for the status line, and one for each value of the rings. -/
def CountsRings (ctrl : CurlData) : Prop :=
  ∃ rings, List.Forall₂ (fun e blocks => IsRing ctrl.refOf blocks e.value)
    ctrl.headers.entries rings ∧ ctrl.headerPairCount - 1 = (rings.map List.length).sum

/-- The call has changed nothing, and a count that was right still is. -/
structure Atomic (before after : CurlData) : Prop extends SameStore before after where
  countsRings : before.CountsRings → after.CountsRings

/-- What a store keeps, whatever fails. -/
structure Intact (ctrl : CurlData) : Prop where
  wellFormed : ctrl.headers.WellFormed
  value_lt : ∀ e ∈ ctrl.headers.entries, e.value < ctrl.blocks.length
  count_lt : ctrl.headerPairCount < 2 ^ 16
  bufSize_pos : 0 < ctrl.headerBufSize

section Step
variable {ctrl : CurlData} {line : HeaderLine}

theorem intact_nativeCreate : Intact nativeCreate where
  wellFormed := wellFormed_hashmapCreate _ _ _ _
  value_lt := fun _ h => nomatch h
  count_lt := by decide
  bufSize_pos := by decide

theorem Intact.reset (h : Intact ctrl) : Intact ctrl.reset where
  wellFormed := h.wellFormed.hashmapClear
  value_lt := by
    intro e he
    rw [show ctrl.reset.headers.entries = [] from entries_hashmapClear _] at he
    cases he
  count_lt := Nat.two_pow_pos 16
  bufSize_pos := h.bufSize_pos

/-- The array keeps its size or gets a larger one, and the count fits a `uint16_t`. -/
theorem appendPair_bounds {statusLine : Bool} {old block : Nat} {name : CString}
    (hcount : ctrl.headerPairCount < 2 ^ 16) (hsize : 0 < ctrl.headerBufSize) :
    (ctrl.appendPair line statusLine old block name).1.headerPairCount < 2 ^ 16 ∧
      0 < (ctrl.appendPair line statusLine old block name).1.headerBufSize := by
  have hgrown : 0 < (ctrl.headersEnsureCapacity line.reallocOk
      (ctrl.headerPairCount + 1)).1.headerBufSize := by
    unfold headersEnsureCapacity
    by_cases hroom : ctrl.headerPairCount + 1 ≤ ctrl.headerBufSize
    · rw [if_pos hroom]
      exact hsize
    · rw [if_neg hroom]
      cases line.reallocOk with
      | false => exact hsize
      | true =>
        show 0 < 3 * (ctrl.headerPairCount + 1) / 2 % 2 ^ 32
        rw [Nat.mod_eq_of_lt (by omega)]
        omega
  obtain ⟨-, hsame, -⟩ :=
    ctrl.headersEnsureCapacity_fields line.reallocOk (ctrl.headerPairCount + 1)
  unfold appendPair
  dsimp only
  split
  · exact ⟨hsame.trans_lt hcount, hgrown⟩
  · refine ⟨Nat.mod_lt _ (Nat.two_pow_pos 16), ?_⟩
    cases statusLine <;> exact hgrown

theorem Intact.header (h : Intact ctrl) (hs : line.isSpecial = false) :
    Intact (ctrl.headerCallback line).1 := by
  obtain ⟨hheaders, hblocks, -⟩ := @headerCallback_enters ctrl line hs
  obtain ⟨maxHeaderLength, name, hcall⟩ := headerCallback_entered ctrl hs
  obtain ⟨-, hcount, -, hbuf, -⟩ := @entered_fields line ctrl
  have hbounds := @appendPair_bounds { ctrl.entered line with maxHeaderLength } line false 0
    ctrl.blocks.length name (hcount ▸ h.count_lt) (hbuf ▸ h.bufSize_pos)
  refine ⟨?_, ?_, hcall ▸ hbounds.1, hcall ▸ hbounds.2⟩
  · rw [hheaders]
    exact wellFormed_entered h.wellFormed
  · intro e he
    rw [hheaders] at he
    rw [hblocks, length_blocks_entered]
    rcases mem_entries_entered h.wellFormed he with hold | ⟨hvalue, -⟩
    · exact Nat.lt_succ_of_lt (h.value_lt e hold)
    · omega

theorem Intact.statusLine (h : Intact ctrl) (hs : line.isStatusLine = true) :
    Intact (ctrl.headerCallback line).1 := by
  obtain ⟨hheaders, -, -⟩ := @headerCallback_special ctrl line (isSpecial_of_isStatusLine hs)
  have hblocks := (addsBlock ctrl (Or.inr hs)).blocks
  have hbounds := @appendPair_bounds ((ctrl.beginResponse.setCount 0).copyLine line) line true
    ctrl.beginResponse.headerPairCount ctrl.blocks.length (line.name ctrl.blocks.length)
    (Nat.two_pow_pos 16) (Nat.lt_of_lt_of_eq h.bufSize_pos beginResponse_headerBufSize.symm)
  rw [← headerCallback_begins hs] at hbounds
  refine ⟨?_, ?_, hbounds.1, hbounds.2⟩
  · rcases hheaders with hsame | hclear
    · exact hsame ▸ h.wellFormed
    · exact hclear ▸ h.wellFormed.hashmapClear
  · intro e he
    rcases hheaders with hsame | hclear
    · rw [hsame] at he
      exact Nat.lt_of_lt_of_le (h.value_lt e he) (by omega)
    · rw [hclear, entries_hashmapClear] at he
      cases he

theorem Intact.step (h : Intact ctrl) : ∀ event, Intact (ctrl.afterEvent event)
  | .reset => h.reset
  | .line line => by
      rcases stored_or_terminator line with (hs | hs) | hterm
      · exact h.header hs
      · exact h.statusLine hs
      · rw [afterEvent, headerCallback_terminator hterm.1 hterm.2]
        exact ⟨h.wellFormed, h.value_lt, h.count_lt, h.bufSize_pos⟩

/-- **Every store that is reached is intact**, with any allocation failing on the way. -/
theorem intact_afterEvents (events : List StoreEvent) :
    Intact (nativeCreate.afterEvents events) :=
  @Runs.run_invariant _ _ Intact (fun _ => True) afterEvent (fun _ event h _ => h.step event) events
    nativeCreate intact_nativeCreate fun _ _ => trivial

end Step

/-! ## A line that fails -/

section Fail
variable {ctrl : CurlData} {line : HeaderLine}

theorem headersEnsureCapacity_failed {ok : Bool} {n : Nat}
    (h : (ctrl.headersEnsureCapacity ok n).2 = true) :
    ctrl.headerBufSize < n ∧ ok = false := by
  unfold headersEnsureCapacity at h
  by_cases hroom : n ≤ ctrl.headerBufSize
  · rw [if_pos hroom] at h
    cases h
  · rw [if_neg hroom] at h
    cases ok with
    | true => cases h
    | false => exact ⟨Nat.lt_of_not_le hroom, rfl⟩

/-- A status line asks for one pair, and there is always room for that: it is a header line
that fails. -/
theorem growFails_header (h : Intact ctrl) (hfail : ctrl.growFails line = true) :
    line.isSpecial = false ∧ ctrl.headerBufSize < ctrl.headerPairCount + 1 ∧
      line.reallocOk = false := by
  rw [growFails, Bool.and_eq_true] at hfail
  obtain ⟨hstored, hgrow⟩ := hfail
  obtain ⟨hroom, hok⟩ := headersEnsureCapacity_failed hgrow
  have hpos := h.bufSize_pos
  have hs : line.isStatusLine = false := by
    by_contra hne
    rw [if_pos (eq_true_of_ne_false hne)] at hroom
    omega
  rw [hs, Bool.or_false, Bool.not_eq_true'] at hstored
  rw [hs, if_neg (by decide)] at hroom
  exact ⟨hstored, hroom, hok⟩

/-- **What a line that fails leaves behind**: it has been entered. -/
theorem headerCallback_growFails (h : Intact ctrl) (hfail : ctrl.growFails line = true) :
    ∃ maxHeaderLength, ctrl.headerCallback line =
      (({ ctrl.entered line with maxHeaderLength } : CurlData).oomThrow, 0) := by
  obtain ⟨hs, hroom, hok⟩ := growFails_header h hfail
  obtain ⟨maxHeaderLength, name, hcall⟩ := headerCallback_entered ctrl hs
  obtain ⟨-, hcount, -, hbuf, -⟩ := @entered_fields line ctrl
  refine ⟨maxHeaderLength, ?_⟩
  rw [hcall, appendPair, headersEnsureCapacity, if_neg (by dsimp only; omega), hok]
  rfl

/-- The new entry is counted. -/
theorem size_hashmapPut (hw : ctrl.headers.WellFormed) {name : CString} (callocOk : Bool)
    (block : Nat) (hget : ctrl.headers.entryGet name = none) :
    (ctrl.headers.hashmapPut name true callocOk block).1.size = ctrl.headers.size + 1 := by
  obtain ⟨hwf, hperm, -, -⟩ := hashmapPut_absent callocOk block hw hget
  rw [hwf.size_eq, hperm.length_eq, List.length_cons, hw.size_eq]

/-- A line is entered without a trace exactly if its name is new and has got no entry. -/
theorem headers_entered_iff (h : Intact ctrl) :
    (ctrl.entered line).headers = ctrl.headers ↔
      ctrl.headers.entryGet (line.name ctrl.blocks.length) = none ∧ line.entryOk = false := by
  unfold entered
  cases hget : ctrl.headers.entryGet (line.name ctrl.blocks.length) with
  | none =>
    have hcopied : (ctrl.copyLine line).headers.entryGet (line.name ctrl.blocks.length) = none :=
      hget
    rw [storeHeader_new hcopied]
    show (ctrl.headers.hashmapPut (line.name ctrl.blocks.length) line.entryOk line.callocOk
      ctrl.blocks.length).1 = ctrl.headers ↔ _
    cases hok : line.entryOk with
    | false => simp [hashmapPut, hget]
    | true =>
      refine ⟨fun hsame => ?_, fun hnot => absurd hnot.2 (by decide)⟩
      have hsize := size_hashmapPut h.wellFormed line.callocOk ctrl.blocks.length hget
      rw [hsame] at hsize
      omega
  | some old =>
    obtain ⟨front, e, rest, hentries, hat, -, hset⟩ := entryGet_some hget
    have hcopied : (ctrl.copyLine line).headers.entryGet (line.name ctrl.blocks.length) =
      some old := hget
    rw [storeHeader_old hcopied hat]
    refine ⟨fun hsame => ?_, fun hnot => absurd hnot.1 (Option.some_ne_none old)⟩
    -- the entry has the new block as its value, and no block that there was
    have hentry : front ++ { e with value := ctrl.blocks.length } :: rest = front ++ e :: rest :=
      (hset ctrl.blocks.length).symm.trans ((congrArg Hashmap.entries hsame).trans hentries)
    have hvalue : ctrl.blocks.length = e.value :=
      congrArg Entry.value (List.cons.inj (List.append_cancel_left hentry)).1
    have hlt := h.value_lt e (by rw [hentries]; simp)
    omega

/-- The rings lie in the blocks there were. -/
theorem CountsRings.of_sameStore {after : CurlData} (hsame : SameStore ctrl after)
    (h : ctrl.CountsRings) : after.CountsRings := by
  obtain ⟨rings, hrings, hcount⟩ := h
  refine ⟨rings, ?_, hsame.headerPairCount ▸ hcount⟩
  rw [hsame.headers]
  refine hrings.imp fun e blocks hring => hring.congr fun p hp => ?_
  have hlt : p < ctrl.blocks.length := by
    by_contra hge
    have hsome := hring.next_isSome p hp
    rw [refOf, List.getElem?_eq_none (Nat.le_of_not_lt hge)] at hsome
    cases hsome
  rw [refOf, refOf, hsame.blocks p hlt]

/-- **A failure leaves no trace** exactly if the line has not been entered. -/
theorem atomic_iff (h : Intact ctrl) (hfail : ctrl.growFails line = true) :
    Atomic ctrl (ctrl.headerCallback line).1 ↔
      ctrl.headers.entryGet (line.name ctrl.blocks.length) = none ∧ line.entryOk = false := by
  obtain ⟨maxHeaderLength, hcall⟩ := headerCallback_growFails h hfail
  obtain ⟨-, hcount, hpairs, -, -⟩ := @entered_fields line ctrl
  rw [hcall, ← headers_entered_iff h]
  constructor
  · intro hatomic
    exact hatomic.headers
  · intro hheaders
    have hget := (headers_entered_iff h).mp hheaders
    have hcopied : (ctrl.copyLine line).headers.entryGet (line.name ctrl.blocks.length) = none :=
      hget.1
    have hblocks : ∀ block < ctrl.blocks.length,
        (ctrl.entered line).blocks[block]? = ctrl.blocks[block]? := by
      intro block hlt
      rw [entered, storeHeader_new hcopied]
      show ((ctrl.blocks ++ [_]).modify _ _)[block]? = _
      rw [List.getElem?_modify_ne _ _ (Nat.ne_of_gt hlt), List.getElem?_append_left hlt]
    have hsame : SameStore ctrl ({ ctrl.entered line with maxHeaderLength } : CurlData).oomThrow :=
      ⟨hheaders, hblocks, hpairs, hcount⟩
    exact ⟨hsame, fun hcounts => hcounts.of_sameStore hsame⟩

end Fail

/-- **When a header line that fails is undone.**  In any store that is reached by lines and
calls of `reset`, with any allocations failing before: if the array of pairs cannot be made
longer, the call returns 0, and it has left the map, its rings, the pairs and their count as
they were exactly if the name is not in the map and its entry could not be allocated. -/
theorem failed_insertion_iff (events : List StoreEvent) (line : HeaderLine)
    (hfail : (nativeCreate.afterEvents events).growFails line = true) :
    ((nativeCreate.afterEvents events).headerCallback line).2 = 0 ∧
      (Atomic (nativeCreate.afterEvents events)
          ((nativeCreate.afterEvents events).headerCallback line).1 ↔
        (nativeCreate.afterEvents events).headers.entryGet
            (line.name (nativeCreate.afterEvents events).blocks.length) = none ∧
          line.entryOk = false) := by
  have hintact := intact_afterEvents events
  refine ⟨?_, atomic_iff hintact hfail⟩
  obtain ⟨maxHeaderLength, hcall⟩ := headerCallback_growFails hintact hfail
  rw [hcall]

/-- A head of a status line and nineteen header lines, which fills the array. -/
def fullHead : List StoreEvent :=
  .line (.ofBytes (ascii "HTTP/1.1 200 OK\r\n")) ::
    List.replicate 19 (.line (.ofBytes (ascii "a:1\r\n")))

/-- A line that neither the array nor the map gets room for. -/
def refusedLine : HeaderLine :=
  ⟨ascii "b:2\r\n", fun _ => 0, fun _ => 0, false, false, false⟩

theorem failed_insertion_refused :
    (nativeCreate.afterEvents fullHead).growFails refusedLine = true ∧
      (((nativeCreate.afterEvents fullHead).headerCallback refusedLine).2 = 0 ∧
        (Atomic (nativeCreate.afterEvents fullHead)
            ((nativeCreate.afterEvents fullHead).headerCallback refusedLine).1 ↔
          (nativeCreate.afterEvents fullHead).headers.entryGet
              (refusedLine.name (nativeCreate.afterEvents fullHead).blocks.length) = none ∧
            refusedLine.entryOk = false)) :=
  have hfail : (nativeCreate.afterEvents fullHead).growFails refusedLine = true := by
    decide +kernel
  ⟨hfail, failed_insertion_iff fullHead refusedLine hfail⟩

/-- The twentieth header line, for which only `realloc` fails. -/
theorem not_failed_insertion :
    let line : HeaderLine := { HeaderLine.ofBytes (ascii "b:2\r\n") with reallocOk := false }
    (nativeCreate.afterEvents fullHead).growFails line = true ∧
      ¬ Atomic (nativeCreate.afterEvents fullHead)
        ((nativeCreate.afterEvents fullHead).headerCallback line).1 := by
  intro line
  have hfail : (nativeCreate.afterEvents fullHead).growFails line = true := by decide +kernel
  refine ⟨hfail, fun hatomic => ?_⟩
  exact absurd ((atomic_iff (intact_afterEvents fullHead) hfail).mp hatomic).2 (by decide)

end CurlData
end Chttpc
