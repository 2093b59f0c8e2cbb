import Chttpc.CallRules
import Chttpc.FailedInsertion
import Chttpc.HeaderLookup

/-!
# The store of the response headers

The map with its rings, the array of pairs and what belongs to them are one part of the
handle (`store`).  `header_callback` works on this part alone (`store_headerCallback`), and so
does everything that answers for the headers.

Whatever a call does and whichever allocations fail, the store is left in a state from which
`reset` clears it (`Sane`).
-/

namespace Chttpc
open Hashmap Program

namespace CurlData
variable {ctrl ctrl' : CurlData} {line : HeaderLine}

/-- The handle with nothing in it but the store of the response headers. -/
def store (ctrl : CurlData) : CurlData :=
  { nativeCreate with
    headers := ctrl.headers
    headerPairs := ctrl.headerPairs
    headerBufSize := ctrl.headerBufSize
    headerPairCount := ctrl.headerPairCount
    blocks := ctrl.blocks
    state := { StateBits.zero with seenHeaderEnd := ctrl.state.seenHeaderEnd } }

/-! ## The callback -/

theorem OnlyReports.store (h : ctrl.OnlyReports ctrl') : ctrl'.store = ctrl.store := by
  cases h with
  | intro env errorBuffer threading => rfl

@[simp] theorem headers_store (ctrl : CurlData) : ctrl.store.headers = ctrl.headers := rfl

@[simp] theorem seenHeaderEnd_store (ctrl : CurlData) :
    ctrl.store.state.seenHeaderEnd = ctrl.state.seenHeaderEnd := rfl

@[simp] theorem headerPairCount_store (ctrl : CurlData) :
    ctrl.store.headerPairCount = ctrl.headerPairCount := rfl

@[simp] theorem headerBufSize_store (ctrl : CurlData) :
    ctrl.store.headerBufSize = ctrl.headerBufSize := rfl

@[simp] theorem blocks_store (ctrl : CurlData) : ctrl.store.blocks = ctrl.blocks := rfl

theorem store_beginResponse (ctrl : CurlData) :
    ctrl.beginResponse.store = ctrl.store.beginResponse.store := by
  unfold beginResponse
  rw [seenHeaderEnd_store]
  split <;> rfl

theorem store_storeHeader (ctrl : CurlData) (line : HeaderLine) (name : CString) (block : Nat) :
    (ctrl.storeHeader line name block).1.store = (ctrl.store.storeHeader line name block).1.store ∧
      (ctrl.storeHeader line name block).2 = (ctrl.store.storeHeader line name block).2 := by
  unfold storeHeader
  rw [headers_store]
  cases ctrl.headers.entryGet name with
  | none => exact ⟨rfl, rfl⟩
  | some old =>
    dsimp only
    cases ctrl.headers.entryAt old with
    | none => exact ⟨rfl, rfl⟩
    | some entry => exact ⟨rfl, rfl⟩

theorem store_noteLength (ctrl : CurlData) (length : Nat) :
    (ctrl.noteLength length).store = ctrl.store := by
  unfold noteLength
  split <;> rfl

theorem store_headersEnsureCapacity (ctrl : CurlData) (ok : Bool) (n : Nat) :
    (ctrl.headersEnsureCapacity ok n).1.store = (ctrl.store.headersEnsureCapacity ok n).1.store ∧
      (ctrl.headersEnsureCapacity ok n).2 = (ctrl.store.headersEnsureCapacity ok n).2 := by
  unfold headersEnsureCapacity
  rw [headerBufSize_store]
  split
  · exact ⟨rfl, rfl⟩
  · cases ok <;> exact ⟨rfl, rfl⟩

theorem store_appendPair (ctrl : CurlData) (statusLine : Bool) (old block : Nat) (name : CString) :
    (ctrl.appendPair line statusLine old block name).1.store =
      (ctrl.store.appendPair line statusLine old block name).1.store := by
  obtain ⟨hstore, hfailed⟩ :=
    ctrl.store_headersEnsureCapacity line.reallocOk (ctrl.headerPairCount + 1)
  unfold appendPair
  rw [headerPairCount_store]
  generalize ctrl.headersEnsureCapacity line.reallocOk _ = grown,
    ctrl.store.headersEnsureCapacity line.reallocOk _ = grown' at hstore hfailed ⊢
  dsimp only
  rw [hfailed]
  have hstore (f : CurlData → CurlData) : (f grown.1.store).store = (f grown'.1.store).store := by
    rw [hstore]
  split
  · exact hstore id
  · cases statusLine with
    | true => exact hstore fun ctrl => ((ctrl.writePair block name).setCount old).setCount _
    | false =>
      exact hstore fun ctrl => (ctrl.writePair block name).setCount
        (toUInt16 ((ctrl.writePair block name).headerPairCount + 1))

/-- **The callback works on the store alone.** -/
theorem store_headerCallback (ctrl : CurlData) (line : HeaderLine) :
    (ctrl.headerCallback line).1.store = (ctrl.store.headerCallback line).1.store := by
  cases hs : line.isSpecial with
  | true =>
    cases ht : line.isStatusLine with
    | true =>
      have hbegun := ctrl.store_beginResponse
      have hcount : ctrl.beginResponse.headerPairCount = ctrl.store.beginResponse.headerPairCount :=
        congrArg (·.headerPairCount) hbegun
      have hready : ((ctrl.beginResponse.setCount 0).copyLine line).store =
          ((ctrl.store.beginResponse.setCount 0).copyLine line).store :=
        congrArg (fun ctrl => CurlData.store ((ctrl.setCount 0).copyLine line)) hbegun
      rw [headerCallback_begins ht, headerCallback_begins ht, store_appendPair, hready, hcount,
        ← store_appendPair, blocks_store]
    | false =>
      rw [headerCallback_terminator hs ht, headerCallback_terminator hs ht]
      rfl
  | false =>
    have hcopied : (ctrl.copyLine line).store = (ctrl.store.copyLine line).store := rfl
    obtain ⟨hstored, hname⟩ :=
      (ctrl.copyLine line).store_storeHeader line (line.name ctrl.blocks.length) ctrl.blocks.length
    obtain ⟨hstored', hname'⟩ := (ctrl.store.copyLine line).store_storeHeader line
      (line.name ctrl.blocks.length) ctrl.blocks.length
    have hnoted (n m : Nat) (ctrl : CurlData) :
        ((ctrl.noteLength n).noteLength m).store = ctrl.store :=
      (store_noteLength _ m).trans (store_noteLength _ n)
    unfold headerCallback
    rw [hs, if_neg (by decide), if_neg (by decide), blocks_store]
    dsimp only
    rw [store_appendPair, hnoted, hname, hstored, hcopied, ← hname', ← hstored',
      store_appendPair (CurlData.noteLength _ _), hnoted]

/-! ## What the store keeps -/

/-- The store can be cleared, whatever has been done to it. -/
structure Sane (ctrl : CurlData) : Prop extends Intact ctrl where
  comparesNames : ctrl.ComparesNames
  /-- The array may hold pointers to older blocks, and to no others. -/
  older : ∀ i block, ctrl.headerPairs i = some (.value block) → block < ctrl.blocks.length

theorem sane_nativeCreate : Sane nativeCreate where
  toIntact := intact_nativeCreate
  comparesNames := comparesNames_nativeCreate
  older := fun _ _ h => nomatch h

theorem Sane.of_store (h : Sane ctrl) (hstore : ctrl'.store = ctrl.store) : Sane ctrl' := by
  have hheaders : ctrl'.headers = ctrl.headers := congrArg (·.headers) hstore
  have hblocks : ctrl'.blocks = ctrl.blocks := congrArg (·.blocks) hstore
  have hpairs : ctrl'.headerPairs = ctrl.headerPairs := congrArg (·.headerPairs) hstore
  have hcount : ctrl'.headerPairCount = ctrl.headerPairCount := congrArg (·.headerPairCount) hstore
  have hbuf : ctrl'.headerBufSize = ctrl.headerBufSize := congrArg (·.headerBufSize) hstore
  refine ⟨⟨?_, ?_, ?_, ?_⟩, ?_, ?_⟩
  · rw [hheaders]
    exact h.wellFormed
  · rw [hheaders, hblocks]
    exact h.value_lt
  · rw [hcount]
    exact h.count_lt
  · rw [hbuf]
    exact h.bufSize_pos
  · rw [ComparesNames, hheaders]
    exact h.comparesNames
  · rw [hpairs, hblocks]
    exact h.older

/-- The pair that is written points to the new block. -/
theorem appendPair_older {statusLine : Bool} {old block n : Nat} {name : CString}
    (h : ∀ i b, ctrl.headerPairs i = some (.value b) → b < n) (hblock : block < n) :
    ∀ i b, (ctrl.appendPair line statusLine old block name).1.headerPairs i = some (.value b) →
      b < n := by
  obtain ⟨-, -, hpairs⟩ :=
    ctrl.headersEnsureCapacity_fields line.reallocOk (ctrl.headerPairCount + 1)
  unfold appendPair
  dsimp only
  split
  · rw [hpairs]
    exact h
  · rename_i hroom
    rw [← hpairs] at h
    generalize ctrl.headersEnsureCapacity line.reallocOk _ = grown at h
    have hwritten (i b : Nat)
        (hi : (grown.1.writePair block name).headerPairs i = some (.value b)) : b < n := by
      unfold writePair at hi
      dsimp only at hi
      split at hi
      · cases hi
        exact hblock
      · split at hi
        · cases hi
        · exact h i b hi
    cases statusLine with
    | true => exact hwritten
    | false => exact hwritten

/-- **The callback leaves the store sane**, whichever allocations fail. -/
theorem Sane.headerCallback (h : Sane ctrl) (line : HeaderLine) :
    Sane (ctrl.headerCallback line).1 := by
  refine ⟨h.toIntact.step (.line line), ?_, ?_⟩
  · cases hs : line.isSpecial with
    | true =>
      rcases (headerCallback_special hs).1 with hsame | hclear
      · rw [ComparesNames, hsame]
        exact h.comparesNames
      · rw [ComparesNames, hclear]
        exact h.comparesNames
    | false =>
      have hcopied : (ctrl.copyLine line).ComparesNames := h.comparesNames
      rw [ComparesNames, (headerCallback_enters hs).1]
      exact hcopied.storeHeader _ _
  · have hgrown (i b : Nat) (hi : ctrl.headerPairs i = some (.value b)) :
        b < ctrl.blocks.length + 1 := Nat.lt_succ_of_lt (h.older i b hi)
    rcases stored_or_terminator line with hstored | hterm
    · rw [(addsBlock ctrl hstored).blocks]
      rcases hstored with hs | ht
      · obtain ⟨maxHeaderLength, name, hcall⟩ := headerCallback_entered ctrl hs
        obtain ⟨-, -, hpairs, -⟩ := @entered_fields line ctrl
        rw [hcall]
        refine appendPair_older ?_ (Nat.lt_succ_self _)
        rw [hpairs]
        exact hgrown
      · rw [headerCallback_begins ht]
        refine appendPair_older ?_ (Nat.lt_succ_self _)
        show ∀ i b, ctrl.beginResponse.headerPairs i = _ → _
        rw [beginResponse_headerPairs]
        exact hgrown
    · rw [headerCallback_terminator hterm.1 hterm.2]
      exact h.older

/-- `reset` clears it. -/
theorem Sane.isReset (h : Sane ctrl) : ctrl.reset.IsReset :=
  isReset_reset h.wellFormed h.bufSize_pos h.older

theorem Sane.reset (h : Sane ctrl) : Sane ctrl.reset := ⟨h.toIntact.reset, h.comparesNames, h.older⟩

end CurlData

/-! ## What the calls keep -/

namespace CurlData
variable {ctrl ctrl' : CurlData} {alloc : HeaderAlloc} {key : JString}

theorem store_setHeader {value : Option JString}
    (h : ctrl.setHeader alloc key value = some ctrl') : ctrl'.store = ctrl.store := by
  unfold setHeader at h
  dsimp only at h
  split at h
  · cases h
    rfl
  split at h
  · cases h
    rfl
  split at h
  · cases h
    rfl
  split at h
  · cases h
    rfl
  · cases h

theorem store_addHeader (value : JString) : (ctrl.addHeader alloc key value).store = ctrl.store := by
  unfold addHeader
  split <;> rfl

theorem store_outHeader {platform : Platform} {stringOk : Bool} {result : Option JString}
    (h : ctrl.outHeader platform alloc stringOk key = some (ctrl', result)) :
    ctrl'.store = ctrl.store := by
  unfold outHeader at h
  split at h
  · cases h
    rfl
  split at h
  · cases h
  split at h
  · cases h
  · cases h
    rfl
  · split at h
    · cases h
      rfl
    · cases h
      rfl

theorem store_writeCallback (platform : Platform) (chunk : List UInt8) :
    (ctrl.writeCallback platform chunk).ctrl.store = ctrl.store := by
  rw [writeCallback_eq]
  rfl

theorem store_readCallback (platform : Platform) (capacity : Nat) :
    (ctrl.readCallback platform capacity).ctrl.store = ctrl.store := by
  rw [readCallback_eq]
  rfl

end CurlData

namespace Transfer
variable {t : Transfer}

theorem store_sendChunk (t : Transfer) (capacity : Nat) :
    (t.sendChunk capacity).ctrl.store = t.ctrl.store := by
  unfold sendChunk
  dsimp only
  split
  · exact CurlData.store_readCallback _ _
  · rfl

theorem store_attach (c : Configure) (t : Transfer) : (c.attach t).ctrl.store = t.ctrl.store := by
  unfold Configure.attach
  dsimp only
  split <;> rfl

theorem store_detach (t : Transfer) : t.detach.ctrl.store = t.ctrl.store := by
  unfold detach
  split <;> rfl

/-- The store can be cleared, and the handle is one of this platform and this library. -/
structure Sane (platform : Platform) (rodata : Nat → UInt8) (t : Transfer) : Prop where
  store : t.ctrl.Sane
  platform_eq : t.platform = platform
  rodata_eq : t.rodata = rodata

section Sane
variable {platform : Platform} {rodata : Nat → UInt8} {t' : Transfer}

theorem sane_fresh : (Transfer.fresh platform rodata).Sane platform rodata :=
  ⟨CurlData.sane_nativeCreate, rfl, rfl⟩

theorem Sane.of_store (h : t.Sane platform rodata) (hstore : t'.ctrl.store = t.ctrl.store)
    (hplatform : t'.platform = t.platform) (hrodata : t'.rodata = t.rodata) :
    t'.Sane platform rodata :=
  ⟨h.store.of_store hstore, hplatform.trans h.platform_eq, hrodata.trans h.rodata_eq⟩

theorem sane_steady : Steady (Sane platform rodata) fun _ => True where
  report := fun _ _ hreports h => h.of_store hreports.store rfl rfl
  header := fun _ line _ h => ⟨h.store.headerCallback line, h.platform_eq, h.rodata_eq⟩
  receive := fun t _ _ _ h => h.of_store (t.ctrl.store_writeCallback _ _) rfl rfl
  send := fun t capacity _ _ h => h.of_store (t.store_sendChunk capacity) rfl rfl
  wait := fun _ _ h => h.of_store rfl rfl rfl

theorem sane_carries : Carries (Sane platform rodata) fun _ => True where
  toSteady := sane_steady
  resumeReceiving := fun _ h => h.of_store rfl rfl rfl
  resumeSending := fun _ h => h.of_store rfl rfl rfl
  needInput := fun _ h => h.of_store rfl rfl rfl
  needOutput := fun _ h => h.of_store rfl rfl rfl
  release := fun _ h => h.of_store rfl rfl rfl

theorem sane_attach (h : t.Sane platform rodata) (c : Configure) :
    (c.attach t).Sane platform rodata := by
  refine h.of_store (store_attach c t) ?_ ?_
  all_goals
    unfold Configure.attach
    dsimp only
    split <;> rfl

theorem sane_detach (h : t.Sane platform rodata) : t.detach.Sane platform rodata := by
  refine h.of_store (store_detach t) ?_ ?_
  all_goals
    unfold detach
    split <;> rfl

theorem sane_locked (h : t.Sane platform rodata) (hfree : t.ctrl.busy = false) {failure : Returned}
    {method : Transfer → Option (CurlData × Returned)}
    (hmethod : ∀ answer, method t.entered = some answer → answer.1.store = t.ctrl.store) :
    (locked failure method t).1.Sane platform rodata := by
  rw [locked, acquire_free hfree]
  show (Program.andThen _ _ t.entered).1.Sane platform rodata
  unfold Program.andThen
  dsimp only
  cases hanswer : method t.entered with
  | none => exact h.of_store rfl rfl rfl
  | some answer => exact h.of_store (hmethod answer hanswer) rfl rfl

end Sane
end Transfer

/-- **Every call leaves the store sane**, at every instant. -/
theorem keeps_sane {platform : Platform} {rodata : Nat → UInt8} (call : Call) :
    Keeps (Transfer.Sane platform rodata) call.run := by
  refine keeps_iff.mpr fun t h => ?_
  have hentered : t.entered.Sane platform rodata := h.of_store rfl rfl rfl
  cases hbusy : t.ctrl.busy with
  | true =>
    obtain ⟨returned, htaken⟩ := call.run_taken hbusy
    rw [htaken]
    exact h.of_store rfl rfl rfl
  | false =>
    have hok := call.all_true
    cases call with
    | nativeConfigure c =>
      have hbegun : (t.entered.modify (·.beginConfigure)).Sane platform rodata :=
        h.of_store rfl rfl rfl
      exact Transfer.sane_carries.nativeConfigure hok hbusy (fun _ => h.of_store rfl rfl rfl)
        fun _ => Transfer.sane_attach hbegun c
    | read r => exact Transfer.sane_carries.read hok hbusy (h.of_store rfl rfl rfl)
    | write w =>
      show (Transfer.write w t).1.Sane platform rodata
      cases hgoal : t.ctrl.goalReached with
      | true =>
        rw [Transfer.write_closed hbusy hgoal]
        exact h.of_store rfl rfl rfl
      | false =>
        rw [Transfer.write_open hbusy hgoal]
        exact Transfer.sane_carries.writeOpen hok (h.of_store rfl rfl rfl)
    | closeOutput c =>
      exact Transfer.sane_carries.closeOutput hok hbusy (h.of_store rfl rfl rfl)
    | reset =>
      show (Transfer.reset t).1.Sane platform rodata
      rw [Transfer.reset, Transfer.acquire_free hbusy]
      have hdetached := Transfer.sane_detach hentered
      have hreset : (t.entered.detach.modify CurlData.reset).Sane platform rodata :=
        ⟨hdetached.store.reset, hdetached.platform_eq, hdetached.rodata_eq⟩
      exact hreset.of_store rfl rfl rfl
    | getHeaders outHeaders alloc =>
      refine Transfer.sane_locked h hbusy fun answer hanswer => ?_
      split at hanswer
      · obtain ⟨result, -, rfl⟩ := Option.map_eq_some_iff.mp hanswer
        rfl
      · cases hanswer
        rfl
    | setHeader alloc key value =>
      refine Transfer.sane_locked h hbusy fun answer hanswer => ?_
      obtain ⟨ctrl, hctrl, rfl⟩ := Option.map_eq_some_iff.mp hanswer
      exact (CurlData.store_setHeader hctrl).trans rfl
    | addHeader alloc key value =>
      refine Transfer.sane_locked h hbusy fun answer hanswer => ?_
      cases hanswer
      exact (CurlData.store_addHeader value).trans rfl
    | outHeader alloc stringOk key =>
      refine Transfer.sane_locked h hbusy fun answer hanswer => ?_
      obtain ⟨⟨ctrl, str⟩, hctrl, rfl⟩ := Option.map_eq_some_iff.mp hanswer
      exact (CurlData.store_outHeader hctrl).trans rfl
    | _ =>
      refine Transfer.sane_locked h hbusy fun answer hanswer => ?_
      cases hanswer
      rfl

end Chttpc
