import Chttpc.BusyLock
import Chttpc.LoopRuns

/-!
# Short reads

`curlPerform` gives up without an error when the direction its caller needs is paused,
and it goes by a flag that every method and every redelivery may have left behind.
For a `read` a flag that is set means that the array is full: `write_callback` sets it
for a chunk that does not fit and for a chunk offered to a full array, unpausing clears
it before a redelivery, and no counter is negative or runs ahead (`Metered`).

So a `read` that comes back short, without an exception and without an interruption,
has found that the transfer is over (`no_short_read`).
-/

namespace Chttpc
open Program

/-! ## The counters -/

/-- The counters of receiving, at any instant: what is asked for is not negative, and
a single byte at most if there is no array. -/
structure CurlData.Metered (ctrl : CurlData) : Prop where
  countToRead : 0 ≤ ctrl.countToRead
  single : ctrl.bufferForReceiving = none → ctrl.countToRead ≤ 1
  readOverflow : 0 ≤ ctrl.readOverflow

theorem CurlData.arrayWrite_none (ctrl : CurlData) {buf ptr : List UInt8} {count : Int}
    (h : (ctrl.arrayWrite buf ptr count).1.bufferForReceiving = none) :
    ctrl.bufferForReceiving = none := by
  unfold arrayWrite at h
  split at h
  · cases h
  · exact h

namespace CurlData.Metered
variable {ctrl ctrl' : CurlData}

theorem of_zero (hcount : ctrl.countToRead = 0) (hoverflow : 0 ≤ ctrl.readOverflow) :
    ctrl.Metered := ⟨by omega, fun _ => by omega, hoverflow⟩

theorem of_eq (h : ctrl.Metered) (hcount : ctrl'.countToRead = ctrl.countToRead)
    (hbuf : ctrl'.bufferForReceiving = ctrl.bufferForReceiving)
    (hoverflow : ctrl'.readOverflow = ctrl.readOverflow) : ctrl'.Metered :=
  ⟨hcount ▸ h.countToRead, fun hnone => hcount ▸ h.single (hbuf ▸ hnone), hoverflow ▸ h.readOverflow⟩

/-- Either all pending bytes are taken, or as many as were asked for. -/
theorem takeReceived (h : ctrl.Metered) (hcount : ctrl.countToRead ≠ 0) (platform : Platform)
    (ptr : List UInt8) (pendingReal : Int) (hpending : 0 < pendingReal) :
    let taken := ctrl.takeReceived platform ptr pendingReal
    0 ≤ taken.count ∧ taken.count ≤ ctrl.countToRead ∧
      (taken.count = pendingReal ∨ taken.count = ctrl.countToRead) ∧
      (taken.ctrl.bufferForReceiving = none → ctrl.bufferForReceiving = none) := by
  have hnonneg := h.countToRead
  unfold CurlData.takeReceived
  cases hbuf : ctrl.bufferForReceiving with
  | none =>
    have hsingle := h.single hbuf
    dsimp only
    exact ⟨by omega, by omega, .inr (by omega), fun _ => rfl⟩
  | some buf =>
    dsimp only
    refine ⟨by split <;> omega, by split <;> omega, by split <;> simp, fun hnone => ?_⟩
    exact hbuf.symm.trans (ctrl.arrayWrite_none hnone)

theorem writeCallback (h : ctrl.Metered) (platform : Platform) (chunk : List UInt8) :
    (ctrl.writeCallback platform chunk).ctrl.Metered := by
  unfold CurlData.writeCallback
  split
  · exact ⟨h.countToRead, h.single, h.readOverflow⟩
  rename_i hcount
  dsimp only
  split
  · exact ⟨h.countToRead, h.single, by dsimp only; omega⟩
  rename_i hcovered
  obtain ⟨hnonneg, hle, -, hbuf⟩ := h.takeReceived hcount platform
    (chunk.drop ctrl.readOverflow.toNat) (toInt32 chunk.length - ctrl.readOverflow) (by omega)
  have hoverflow := h.readOverflow
  split
  · refine ⟨by dsimp only; omega, fun hnone => ?_, Int.le_refl 0⟩
    have hsingle := h.single (hbuf hnone)
    dsimp only
    omega
  · refine ⟨by dsimp only [setRecvPaused]; omega, fun hnone => ?_, by dsimp only [setRecvPaused]; omega⟩
    have hsingle := h.single (hbuf hnone)
    dsimp only [setRecvPaused]
    omega

/-- **The flag is set with the array full.** -/
theorem writeCallback_full (h : ctrl.Metered) (platform : Platform) (chunk : List UInt8)
    (hbefore : ctrl.state.recvPaused = true → ctrl.countToRead = 0)
    (hpaused : (ctrl.writeCallback platform chunk).ctrl.state.recvPaused = true) :
    (ctrl.writeCallback platform chunk).ctrl.countToRead = 0 := by
  unfold CurlData.writeCallback at hpaused ⊢
  split
  · assumption
  rename_i hcount
  rw [if_neg hcount] at hpaused
  dsimp only at hpaused ⊢
  split
  · rename_i hcovered
    rw [if_pos hcovered] at hpaused
    exact absurd (hbefore hpaused) hcount
  rename_i hcovered
  rw [if_neg hcovered] at hpaused
  obtain ⟨-, -, htaken, -⟩ := h.takeReceived hcount platform
    (chunk.drop ctrl.readOverflow.toNat) (toInt32 chunk.length - ctrl.readOverflow) (by omega)
  split
  · rename_i hwhole
    rw [if_pos hwhole, takeReceived_eq] at hpaused
    exact absurd (hbefore hpaused) hcount
  · rename_i hwhole
    have hall := htaken.resolve_left hwhole
    dsimp only [setRecvPaused]
    omega

end CurlData.Metered

/-- The arguments of the call are what the Java streams have checked. -/
def Call.Checked : Call → Prop
  | .read r => r.InRange
  | _ => True

theorem BodyCall.InRange.metered {r : BodyCall} (hr : r.InRange) :
    0 ≤ r.count ∧ (r.buf = none → r.count ≤ 1) := by
  unfold BodyCall.InRange at hr
  split at hr
  · rename_i buf hbuf
    exact ⟨by omega, fun hnone => by rw [hbuf] at hnone; cases hnone⟩
  · exact ⟨by omega, fun _ => by omega⟩

namespace CurlData.Metered

protected theorem invariant : Transfer.Invariant (·.ctrl.Metered) fun _ => True where
  io := fun _ _ hio h => h.of_eq (congrArg (·.countToRead) hio)
    (congrArg (·.bufferForReceiving) hio) (congrArg (·.readOverflow) hio)
  receive := fun t n _ _ h => h.writeCallback t.platform (t.curl.offer n)
  send := by
    intro t capacity _ _ h
    unfold Transfer.sendChunk
    dsimp only
    split
    · rw [CurlData.readCallback_eq]
      exact ⟨h.countToRead, h.single, h.readOverflow⟩
    · exact ⟨h.countToRead, h.single, h.readOverflow⟩
  wait := fun _ _ h => h

/-- Every method stores counters that make sense. -/
protected theorem lines : Transfer.Lines (·.ctrl.Metered) Call.Checked where
  lock := fun _ _ _ h => ⟨h.countToRead, h.single, h.readOverflow⟩
  wire := fun _ _ hwire h => h.of_eq (congrArg (·.countToRead) hwire)
    (congrArg (·.bufferForReceiving) hwire) (congrArg (·.readOverflow) hwire)
  beginConfigure := fun _ _ _ h => .of_zero rfl h.readOverflow
  attach := by
    intro t c _ h
    unfold Configure.attach
    dsimp only
    split
    · exact ⟨h.countToRead, h.single, h.readOverflow⟩
    · exact ⟨h.countToRead, h.single, h.readOverflow⟩
  beginRead := fun _ _ hr h => ⟨hr.metered.1, hr.metered.2, h.readOverflow⟩
  beginWrite := fun _ _ h => .of_zero rfl h.readOverflow
  beginClose := fun _ h => .of_zero rfl h.readOverflow
  needInput := fun _ h => ⟨h.countToRead, h.single, h.readOverflow⟩
  needOutput := fun _ h => ⟨h.countToRead, h.single, h.readOverflow⟩
  resumeReceiving := fun _ h => ⟨h.countToRead, h.single, h.readOverflow⟩
  resumeSending := fun _ h => ⟨h.countToRead, h.single, h.readOverflow⟩
  reset := by
    intro t _ h
    unfold Transfer.detach
    split
    · exact ⟨h.countToRead, h.single, Int.le_refl 0⟩
    · exact ⟨h.countToRead, h.single, Int.le_refl 0⟩

theorem run {platform : Platform} {rodata : Nat → UInt8} {calls : List Call} {t : Transfer}
    (hcalls : ∀ call ∈ calls, call.Checked)
    (hrun : runCalls calls (.fresh platform rodata) = (t, some ())) : t.ctrl.Metered := by
  have hkeeps : Keeps (fun t : Transfer => t.ctrl.Metered) (runCalls calls) :=
    Keeps.forEach fun call hcall => CurlData.Metered.lines.keeps_run CurlData.Metered.invariant
      (hcalls call hcall) call.all_true
  have h := keeps_iff.mp hkeeps (.fresh platform rodata) (.of_zero rfl (Int.le_refl 0))
  rwa [hrun] at h

end CurlData.Metered

/-! ## A read under way -/

/-- A `read` under way, which started when `before` had been copied: the flag is set with
the array full only, and the bytes copied are those the counter says. -/
structure Reading (r : BodyCall) (before : List UInt8) (t : Transfer) : Prop where
  needInput : t.ctrl.state.needInput = true
  needOutput : t.ctrl.state.needOutput = false
  paused : t.ctrl.state.recvPaused = true → t.ctrl.countToRead = 0
  readOverflow : 0 ≤ t.ctrl.readOverflow
  counted : ∃ bytes, t.copied = before ++ bytes ∧ r.Holds bytes t.ctrl

theorem BodyCall.Holds.metered {r : BodyCall} {bytes : List UInt8} {ctrl : CurlData}
    (hr : r.InRange) (h : r.Holds bytes ctrl) (hoverflow : 0 ≤ ctrl.readOverflow) :
    ctrl.Metered := by
  obtain ⟨hle, hcount, hbuf⟩ := h
  refine ⟨by omega, fun hnone => ?_, hoverflow⟩
  cases hrbuf : r.buf with
  | none =>
    have hsingle := hr.metered.2 hrbuf
    omega
  | some buf =>
    rw [hrbuf] at hbuf
    cases hnone.symm.trans hbuf.1

namespace Reading
variable {r : BodyCall} {before : List UInt8} {t : Transfer}

theorem metered (hr : r.InRange) (h : Reading r before t) : t.ctrl.Metered := by
  obtain ⟨bytes, -, hholds⟩ := h.counted
  exact hholds.metered hr h.readOverflow

theorem receiveChunk (hr : r.InRange) (h : Reading r before t) {n : Nat} (hn : n < 2 ^ 31) :
    Reading r before (t.receiveChunk n) := by
  have hmetered := h.metered hr
  have hafter := hmetered.writeCallback t.platform (t.curl.offer n)
  obtain ⟨bytes, hcopied, hholds⟩ := h.counted
  have hlength : (t.curl.offer n).length < 2 ^ 31 := by
    rw [Libcurl.offer, List.length_take]
    omega
  obtain ⟨hreceived, -⟩ :=
    t.ctrl.writeCallback_spec t.platform hlength h.readOverflow (hholds.room hr)
  refine ⟨?_, ?_, hmetered.writeCallback_full _ _ h.paused, hafter.readOverflow,
    bytes ++ (t.ctrl.writeCallback t.platform (t.curl.offer n)).bytes, ?_, hholds.received hr hreceived⟩
  · show (CurlData.writeCallback _ _ _).ctrl.state.needInput = true
    rw [CurlData.writeCallback_eq]
    exact h.needInput
  · show (CurlData.writeCallback _ _ _).ctrl.state.needOutput = false
    rw [CurlData.writeCallback_eq]
    exact h.needOutput
  · show t.copied ++ _ = _
    rw [hcopied, List.append_assoc]

/-- Headers, exceptions and what is being sent do not matter. -/
theorem of_eq (h : Reading r before t) {ctrl : CurlData}
    (hstate : ctrl.state.needInput = t.ctrl.state.needInput ∧
      ctrl.state.needOutput = t.ctrl.state.needOutput ∧
      ctrl.state.recvPaused = t.ctrl.state.recvPaused)
    (hcount : ctrl.countToRead = t.ctrl.countToRead)
    (hoverflow : ctrl.readOverflow = t.ctrl.readOverflow)
    (hbuf : ctrl.bufferForReceiving = t.ctrl.bufferForReceiving)
    (hoffset : ctrl.readOffset = t.ctrl.readOffset) : Reading r before { t with ctrl } := by
  obtain ⟨bytes, hcopied, hholds⟩ := h.counted
  exact ⟨hstate.1.trans h.needInput, hstate.2.1.trans h.needOutput,
    fun hpaused => hcount.trans (h.paused (hstate.2.2.symm.trans hpaused)),
    by rw [hoverflow]; exact h.readOverflow, bytes, hcopied, hholds.of_eq hcount hbuf hoffset⟩

protected theorem invariant (hr : r.InRange) :
    Transfer.Invariant (Reading r before) Callback.FitsInt where
  io := fun t ctrl hio h => h.of_eq
    ⟨congrArg (·.state.needInput) hio, congrArg (·.state.needOutput) hio,
      congrArg (·.state.recvPaused) hio⟩
    (congrArg (·.countToRead) hio) (congrArg (·.readOverflow) hio)
    (congrArg (·.bufferForReceiving) hio) (congrArg (·.readOffset) hio)
  receive := fun _ _ hn _ h => h.receiveChunk hr hn
  send := by
    intro t capacity _ _ h
    unfold Transfer.sendChunk
    dsimp only
    obtain ⟨bytes, hcopied, hholds⟩ := h.counted
    split
    · rw [CurlData.readCallback_eq]
      exact ⟨h.needInput, h.needOutput, h.paused, h.readOverflow, bytes, hcopied,
        hholds.of_eq rfl rfl rfl⟩
    · exact ⟨h.needInput, h.needOutput, h.paused, h.readOverflow, bytes, hcopied,
        hholds.of_eq rfl rfl rfl⟩
  wait := fun _ _ h => ⟨h.needInput, h.needOutput, h.paused, h.readOverflow, h.counted⟩

/-- The loop gives up with the array full only. -/
theorem full_of_bails (h : Reading r before t) (hbails : t.ctrl.bails t.rodata = true) :
    t.ctrl.countToRead = 0 := by
  refine h.paused ?_
  simpa [CurlData.bails, h.needInput, h.needOutput] using hbails

end Reading

/-! ## How a `read` ends -/

/-- The value of `read` behind the label `success`. -/
def CurlData.readValue (count : Int) (ctrl : CurlData) : Int :=
  if count = 1 then ctrl.readOffset else count - ctrl.countToRead

/-- A `read` finds the transfer drained: nothing has been copied, and the loop has ended
for another reason than a pause. -/
def BodyCall.Drained (r : BodyCall) (ended : Bool) (ctrl : CurlData) : Prop :=
  r.interruptedAgain = false ∧ ended = true ∧ 0 < ctrl.countToRead ∧ ctrl.countToRead = r.count

/-- **How a `read` that comes back has ended**, by the exit it has taken. -/
inductive ReadExit (r : BodyCall) (t : Transfer) : Transfer → Int → Prop
  | refused {s : Transfer} {code : CURLcode} :
      Transfer.resumeReceiving r.pause t = (s, some code) → code ≠ .ok →
      ReadExit r t (s.modify (·.handleEasyError code)) (-1)
  | interrupted {s : Transfer} : Transfer.resumeReceiving r.pause t = (s, some .ok) →
      r.interrupted = true → ReadExit r t s (s.ctrl.readValue r.count)
  | drained {s t' : Transfer} {ended : Bool} :
      Transfer.resumeReceiving r.pause t = (s, some .ok) → r.interrupted = false →
      Transfer.curlPerform r.loop s = (t', some ended) → r.Drained ended t'.ctrl →
      ReadExit r t t' (-1)
  | success {s t' : Transfer} {ended : Bool} :
      Transfer.resumeReceiving r.pause t = (s, some .ok) → r.interrupted = false →
      Transfer.curlPerform r.loop s = (t', some ended) → ¬ r.Drained ended t'.ctrl →
      ReadExit r t t' (t'.ctrl.readValue r.count)

namespace Transfer
variable {r : BodyCall} {t t' : Transfer} {value : Int}

theorem readExit_of_receive (h : receive r t = (t', some value)) : ReadExit r t t' value := by
  obtain ⟨s, code, hresume, h⟩ := bind_eq_some h
  by_cases hcode : code = .ok
  swap
  · rw [if_pos hcode] at h
    cases h
    exact .refused hresume hcode
  subst hcode
  rw [if_neg (not_not.mpr rfl)] at h
  by_cases hinterrupted : r.interrupted = true
  · rw [if_pos hinterrupted] at h
    cases h
    exact .interrupted hresume hinterrupted
  rw [if_neg hinterrupted] at h
  obtain ⟨t₁, ended, hperform, h⟩ := bind_eq_some h
  rw [bind_some (show get (·.countToRead) t₁ = (t₁, some t₁.ctrl.countToRead) from rfl)] at h
  rw [Bool.not_eq_true] at hinterrupted
  split at h
  · rename_i hdrained
    cases h
    exact .drained hresume hinterrupted hperform hdrained
  · rename_i hdrained
    cases h
    exact .success hresume hinterrupted hperform hdrained

/-- The last lines of `read`. -/
def left (t : Transfer) : Transfer :=
  { t with ctrl := { t.ctrl.setNeedInput false with busy := false } }

theorem read_free (hbusy : t.ctrl.busy = false) : read r t =
    match receive r (t.reading r) with
    | (t', some value) => (t'.left, some (.int value))
    | (t', none) => (t', none) := by
  have hread : read r t = (receive r >>= fun retVal => do
      Transfer.update (·.setNeedInput false)
      Transfer.release
      pure (.int retVal : Returned)) (t.reading r) := by
    rw [read, acquire_free hbusy]
    rfl
  rw [hread, bind_apply]
  rcases receive r (t.reading r) with ⟨s, _ | value⟩ <;> rfl

/-- A `read` that has come back has been refused the lock or has taken an exit. -/
theorem exit_of_read {returned : Returned} (hbusy : t.ctrl.busy = false)
    (h : read r t = (t', some returned)) :
    ∃ s value, ReadExit r (t.reading r) s value ∧ t' = s.left ∧ returned = .int value := by
  rw [read_free hbusy] at h
  rcases hreceive : receive r (t.reading r) with ⟨s, _ | value⟩
  · rw [hreceive] at h
    cases h
  · rw [hreceive] at h
    cases h
    exact ⟨s, value, readExit_of_receive hreceive, rfl, rfl⟩

end Transfer

/-! ## What ends the loop -/

namespace CurlData
variable (ctrl : CurlData)

theorem pending_handleMultiError (code : CURLMcode) :
    (ctrl.handleMultiError code).env.pending ≠ none := by
  unfold handleMultiError
  dsimp only
  split
  · rename_i hpending
    exact Option.isSome_iff_ne_none.mp hpending
  · split
    · exact JNIEnv.pending_throw _ _
    · exact JNIEnv.pending_throw _ _

theorem pending_throwTimeout (transferred : Nat) :
    (ctrl.throwTimeout transferred).env.pending ≠ none := JNIEnv.pending_throw _ _

theorem pending_throwEasyError (code : CURLcode) (e : ErrorText) :
    (ctrl.throwEasyError code e).env.pending ≠ none := by
  cases code <;> exact JNIEnv.pending_throw _ _

/-- Every error of a transfer that has been asked for its response is raised. -/
theorem pending_handleEasyError (code : CURLcode) (hinput : ctrl.state.doInput = true) :
    (ctrl.handleEasyError code).env.pending ≠ none := by
  unfold handleEasyError
  rw [if_neg fun herror => by rw [hinput] at herror; cases herror.2]
  dsimp only
  split
  · rename_i hpending
    exact Option.isSome_iff_ne_none.mp hpending
  · exact pending_throwEasyError _ _ _

end CurlData

namespace Pass

/-- The pass has found that the transfer is over: `checkResult` reports completion, or
libcurl that no handle is running. -/
def Finishes (pass : Pass) : Prop :=
  pass.it.interrupted = false ∧ ∃ running, pass.it.perform.returns = some (.ok, running) ∧
    (pass.before.completed pass.it = true ∨ running = 0)

/-- The pass finds the interruption flag raised. -/
def SeesInterruption (pass : Pass) : Prop :=
  pass.it.interrupted = true ∨ pass.it.interruptedAgain = true

end Pass

namespace Reading
variable {r : BodyCall} {before : List UInt8} {t t' : Transfer} {pass : Pass} {ended : Bool}

/-- **The pass that ends the loop** of a `read` has raised an exception, has found that
the transfer is over, has seen an interruption, or has found the array full. -/
theorem last_pass (h : Reading r before t')
    (hrun : pass.run = (t', some (.stop ended))) :
    (ended = true ∧ (t'.ctrl.env.pending ≠ none ∨ pass.Finishes)) ∨
      (ended = false ∧ (pass.SeesInterruption ∨ t'.ctrl.countToRead = 0)) := by
  cases Iterated.of_iterate hrun with
  | interrupted hinterrupted => exact .inr ⟨rfl, .inl (.inl hinterrupted)⟩
  | multiError _ _ _ => exact .inl ⟨rfl, .inl (CurlData.pending_handleMultiError _ _)⟩
  | completed hinterrupted hreturns hcompleted =>
    exact .inl ⟨rfl, .inr ⟨hinterrupted, _, hreturns, .inl hcompleted⟩⟩
  | bails _ _ _ hbails => exact .inr ⟨rfl, .inr (h.full_of_bails hbails)⟩
  | idle hinterrupted hreturns _ _ => exact .inl ⟨rfl, .inr ⟨hinterrupted, _, hreturns, .inr rfl⟩⟩
  | interruptedAgain _ _ _ _ _ hagain => exact .inr ⟨rfl, .inl (.inr hagain)⟩
  | waits _ _ _ _ _ _ hwait =>
    cases hwait with
    | waitError _ _ _ => exact .inl ⟨rfl, .inl (CurlData.pending_handleMultiError _ _)⟩
    | timedOut _ _ _ => exact .inl ⟨rfl, .inl (CurlData.pending_throwTimeout _ _)⟩

/-- A pass that finds the transfer over ends the loop for that reason, unless the array
is full. -/
theorem ended_of_finishes (h : Reading r before t') (hfinishes : pass.Finishes)
    (hrun : pass.run = (t', some (.stop ended))) : ended = true ∨ t'.ctrl.countToRead = 0 := by
  obtain ⟨hinterrupted, running, hreturns, hover⟩ := hfinishes
  cases Iterated.of_iterate hrun with
  | interrupted hflag => rw [hinterrupted] at hflag; cases hflag
  | multiError _ _ _ => exact .inl rfl
  | completed _ _ _ => exact .inl rfl
  | bails _ _ _ hbails => exact .inr (h.full_of_bails hbails)
  | idle _ _ _ _ => exact .inl rfl
  | interruptedAgain _ hreturns' hcompleted _ hrunning _ =>
    cases hreturns.symm.trans hreturns'
    rcases hover with hover | hover
    · rw [hcompleted] at hover; cases hover
    · exact absurd hover hrunning
  | waits _ _ _ _ _ _ hwait =>
    cases hwait with
    | waitError _ _ _ => exact .inl rfl
    | timedOut _ _ _ => exact .inl rfl


/-- Whatever the flag was, it is clear when receiving has been resumed. -/
theorem cleared (hr : r.InRange) (hmetered : t.ctrl.Metered)
    (hneed : t.ctrl.state.needOutput = false) :
    Reading r t.copied
      { (t.reading r).modify (·.setRecvPaused false) with curl := t.curl.unpause } :=
  ⟨rfl, hneed, (nomatch ·), hmetered.readOverflow, [], (List.append_nil _).symm,
    .beginRead hr t.entered.ctrl⟩

theorem resume (hr : r.InRange) (hpause : r.pause.All Callback.FitsInt) (hmetered : t.ctrl.Metered)
    (hneed : t.ctrl.state.needOutput = false) :
    Triple (· = t.reading r) (Transfer.resumeReceiving r.pause) (fun _ => Reading r t.copied)
      (Reading r t.copied) := by
  rintro _ rfl
  rw [Transfer.resumeReceiving, Transfer.resume_eq]
  cases hpaused : (t.reading r).ctrl.state.recvPaused with
  | false =>
    rw [if_neg (by decide)]
    have hclear : ¬ (t.reading r).ctrl.state.recvPaused = true := by rw [hpaused]; decide
    exact ⟨rfl, hneed, fun hflag => absurd hflag hclear, hmetered.readOverflow, [],
      (List.append_nil _).symm, .beginRead hr t.entered.ctrl⟩
  | true =>
    rw [if_pos rfl]
    have hafter := (Reading.invariant hr).invokeAll r.pause.callbacks hpause
      (cleared hr hmetered hneed)
    exact Triple.call (P := (· = (t.reading r).modify (·.setRecvPaused false)))
      (fun _ _ hs _ => by rw [hs]; exact hafter) (fun _ hs => by rw [hs]; exact hafter) _ rfl

theorem resumed {s : Transfer} {code : CURLcode} (hr : r.InRange)
    (hpause : r.pause.All Callback.FitsInt) (hmetered : t.ctrl.Metered)
    (hneed : t.ctrl.state.needOutput = false)
    (h : Transfer.resumeReceiving r.pause (t.reading r) = (s, some code)) :
    Reading r t.copied s := by
  have hresume := resume hr hpause hmetered hneed _ rfl
  rw [h] at hresume
  exact hresume

/-- The loop of a `read`, and the pass that ends it. -/
theorem loop (hr : r.InRange) (hloop : r.loop.All Callback.FitsInt) (h : Reading r before t)
    (hperform : Transfer.curlPerform r.loop t = (t', some ended)) :
    Reading r before t' ∧ ∃ pass, (Transfer.loopPasses r.loop t).getLast? = some pass ∧
      pass.run = (t', some (.stop ended)) := by
  refine ⟨?_, Transfer.exists_last_pass _ hperform⟩
  have hkeeps : Keeps (Reading r before) (Transfer.curlPerform r.loop) :=
    (Reading.invariant hr).curlPerform hloop
  have hafter := keeps_iff.mp hkeeps t h
  rw [hperform] at hafter
  exact hafter

end Reading

/-! ## The interruption flag -/

namespace BodyCall

/-- The values of the interruption flag that the native method finds, in turn. -/
def looks (r : BodyCall) : List Bool :=
  r.interrupted :: r.loop.iterations.flatMap (fun it => [it.interrupted, it.interruptedAgain]) ++
    [r.interruptedAgain]

/-- The flag is not lowered while the method runs. -/
def FlagStays (r : BodyCall) : Prop :=
  r.looks.Pairwise fun earlier later => earlier = true → later = true

/-- The flag is clear whenever the native method looks at it. -/
structure Undisturbed (r : BodyCall) : Prop where
  interrupted : r.interrupted = false
  iterations : ∀ it ∈ r.loop.iterations, it.interrupted = false ∧ it.interruptedAgain = false
  interruptedAgain : r.interruptedAgain = false

/-- A flag that is clear when the call ends has been clear throughout. -/
theorem FlagStays.undisturbed {r : BodyCall} (h : r.FlagStays) (hlast : r.interruptedAgain = false) :
    r.Undisturbed := by
  have hlater := (List.pairwise_append.mp h).2.2
  have hclear : ∀ flag ∈ r.interrupted ::
      r.loop.iterations.flatMap (fun it => [it.interrupted, it.interruptedAgain]), flag = false := by
    intro flag hflag
    refine Bool.eq_false_iff.mpr fun hraised => ?_
    have h := hlater flag hflag _ (List.mem_singleton.mpr rfl) hraised
    rw [hlast] at h
    cases h
  refine ⟨hclear _ List.mem_cons_self, fun it hit => ⟨hclear _ ?_, hclear _ ?_⟩, hlast⟩
  · exact List.mem_cons_of_mem _ (List.mem_flatMap.mpr ⟨it, hit, by simp⟩)
  · exact List.mem_cons_of_mem _ (List.mem_flatMap.mpr ⟨it, hit, by simp⟩)

/-- The transfer has finished: the loop of the `read` is over, and its last pass has found
that the transfer is. -/
def Finishes (r : BodyCall) (t : Transfer) : Prop :=
  ∃ s pass, Transfer.resumeReceiving r.pause (t.reading r) = (s, some .ok) ∧
    (Transfer.loopPasses r.loop s).getLast? = some pass ∧ pass.Finishes

end BodyCall

/-- What a transfer is about: whether its response has been asked for, the response, and
the platform. -/
def Transfer.subject (t : Transfer) : Bool × List UInt8 × Platform :=
  (t.ctrl.state.doInput, t.curl.body, t.platform)

theorem Transfer.subject_of_eq {t t' : Transfer} {subject : Bool × List UInt8 × Platform}
    (h : t.subject = subject) (hinput : t'.ctrl.state.doInput = t.ctrl.state.doInput)
    (hbody : t'.curl.body = t.curl.body) (hplatform : t'.platform = t.platform) :
    t'.subject = subject := by
  rw [← h, Transfer.subject, Transfer.subject, hinput, hbody, hplatform]

theorem subject_invariant (subject : Bool × List UInt8 × Platform) :
    Transfer.Invariant (·.subject = subject) fun _ => True where
  io := fun _ _ hio h => Transfer.subject_of_eq h (congrArg (·.state.doInput) hio) rfl rfl
  receive := by
    intro t n _ _ h
    unfold Transfer.receiveChunk
    dsimp only
    rw [CurlData.writeCallback_eq, Libcurl.afterWrite_eq]
    exact Transfer.subject_of_eq h rfl rfl rfl
  send := by
    intro t capacity _ _ h
    unfold Transfer.sendChunk
    dsimp only
    rw [Libcurl.afterRead_eq]
    split
    · rw [CurlData.readCallback_eq]
      exact Transfer.subject_of_eq h rfl rfl rfl
    · exact Transfer.subject_of_eq h rfl rfl rfl
  wait := fun _ _ h => h

/-- Unpausing that fails raises an exception, if the response has been asked for. -/
theorem pending_refused {r : BodyCall} {t s : Transfer} {code : CURLcode}
    (hinput : t.ctrl.state.doInput = true)
    (h : Transfer.resumeReceiving r.pause (t.reading r) = (s, some code)) :
    (s.modify (·.handleEasyError code)).left.ctrl.env.pending ≠ none := by
  have hresume : Keeps (·.subject = (t.reading r).subject) (Transfer.resumeReceiving r.pause) :=
    (subject_invariant _).resume (fun _ _ => trivial) fun _ ht =>
      Transfer.subject_of_eq ht rfl rfl rfl
  have hs := keeps_iff.mp hresume (t.reading r) rfl
  rw [h] at hs
  exact CurlData.pending_handleEasyError _ code ((congrArg Prod.fst hs).trans hinput)

theorem mem_of_last_pass {loop : Loop} {t : Transfer} {pass : Pass}
    (h : (Transfer.loopPasses loop t).getLast? = some pass) : pass.it ∈ loop.iterations := by
  have hpasses : ∀ pass ∈ Transfer.loopPasses loop t, pass.it ∈ loop.iterations ∧ True :=
    Transfer.forall_passes (fun _ _ _ _ _ _ _ _ => trivial) _ _ t (fun _ => id) trivial
  exact (hpasses pass (List.mem_of_getLast? h)).1

theorem BodyCall.Undisturbed.not_seen {r : BodyCall} (h : r.Undisturbed) {t : Transfer} {pass : Pass}
    (hlast : (Transfer.loopPasses r.loop t).getLast? = some pass) : ¬ pass.SeesInterruption := by
  obtain ⟨hhead, hagain⟩ := h.iterations _ (mem_of_last_pass hlast)
  rintro (hseen | hseen)
  · rw [hhead] at hseen; cases hseen
  · rw [hagain] at hseen; cases hseen

/-- **No short reads.**  After any calls, a `read` that returns without an exception and
with the flag clear, and that has copied fewer bytes than it was asked for, has found
that the transfer is over.

In a `read`, `curlPerform` gives up before that with the array full or for an
interruption only. -/
theorem no_short_read {platform : Platform} {rodata : Nat → UInt8} {calls : List Call}
    {t : Transfer} (hcalls : ∀ call ∈ calls, call.Checked)
    (hrun : runCalls calls (.fresh platform rodata) = (t, some ()))
    (hinput : t.ctrl.state.doInput = true) {r : BodyCall} (hr : r.InRange)
    (hok : (Call.read r).All Callback.FitsInt) (hstays : r.FlagStays) :
    (∀ t' returned, Transfer.read r t = (t', some returned) → r.interruptedAgain = false →
        t'.ctrl.env.pending = none → (t'.copied.length : Int) < t.copied.length + r.count →
        r.Finishes t) ∧
      (t.ctrl.busy = false → ∀ s s', Transfer.resumeReceiving r.pause (t.reading r) = (s, some .ok) →
        Transfer.curlPerform r.loop s = (s', some false) → 0 < s'.ctrl.countToRead →
        ∃ pass, (Transfer.loopPasses r.loop s).getLast? = some pass ∧ pass.SeesInterruption) := by
  have hmetered := CurlData.Metered.run hcalls hrun
  have hfree : t.ctrl.busy = false → t.ctrl.state.needOutput = false := fun hbusy =>
    (released_or_taken (released_fresh platform rodata) hrun).elim (·.needOutput)
      fun htaken => by rw [hbusy] at htaken; cases htaken
  refine ⟨fun t' returned hread hclear hpending hshort => ?_, fun hbusy s s' hresume hperform hleft => ?_⟩
  · cases hbusy : t.ctrl.busy with
    | true =>
      rw [Transfer.read, Transfer.acquire_taken hbusy] at hread
      cases hread
      cases hpending
    | false =>
    have hundisturbed := hstays.undisturbed hclear
    have hloop : ∀ {s s' : Transfer} {ended : Bool},
        Transfer.resumeReceiving r.pause (t.reading r) = (s, some .ok) →
        Transfer.curlPerform r.loop s = (s', some ended) → s'.left = t' → r.Finishes t := by
      rintro s s' ended hresume hperform rfl
      obtain ⟨hafter, pass, hlast, hpass⟩ :=
        (Reading.resumed hr hok.1 hmetered (hfree hbusy) hresume).loop hr hok.2 hperform
      obtain ⟨bytes, hcopied, -, hcount, -⟩ := hafter.counted
      rcases hafter.last_pass hpass with ⟨-, hraised | hfinishes⟩ | ⟨-, hseen | hfull⟩
      · exact absurd hpending hraised
      · exact ⟨s, pass, hresume, hlast, hfinishes⟩
      · exact absurd hseen (hundisturbed.not_seen hlast)
      · have hlength : (s'.left.copied.length : Int) = t.copied.length + bytes.length := by
          show (s'.copied.length : Int) = _
          rw [hcopied, List.length_append]
          omega
        omega
    obtain ⟨s', value, hexit, rfl, -⟩ := Transfer.exit_of_read hbusy hread
    cases hexit with
    | refused hresume _ => exact absurd hpending (pending_refused hinput hresume)
    | interrupted _ hflag => rw [hundisturbed.interrupted] at hflag; cases hflag
    | drained hresume _ hperform _ => exact hloop hresume hperform rfl
    | success hresume _ hperform _ => exact hloop hresume hperform rfl
  · obtain ⟨hafter, pass, hlast, hpass⟩ :=
      (Reading.resumed hr hok.1 hmetered (hfree hbusy) hresume).loop hr hok.2 hperform
    rcases hafter.last_pass hpass with ⟨hended, -⟩ | ⟨-, hseen | hfull⟩
    · cases hended
    · exact ⟨pass, hlast, hseen⟩
    · omega

/-- A `read` of five bytes of a response of three, behind which no handle is running. -/
def readFive : BodyCall where
  buf := some [0, 0, 0, 0, 0, 0]
  off := 1
  count := 5
  pause := ⟨[.body 3], some .ok⟩
  interrupted := false
  loop := ⟨⟨0, 0⟩, [⟨false, ⟨[], some (.ok, 0)⟩, [], false, -1, none, ⟨0, 0⟩⟩]⟩
  interruptedAgain := false

theorem no_short_read_readFive :
    (Transfer.read readFive (downloading [10, 20, 30])).1.copied = [10, 20, 30] ∧
      readFive.Finishes (downloading [10, 20, 30]) := by
  have hrun : runCalls [.nativeConfigure (configureSecond [10, 20, 30])]
      (.fresh latinPlatform fun _ => 0) = (downloading [10, 20, 30], some ()) := rfl
  refine ⟨rfl, (no_short_read ?_ hrun rfl ?_ ?_ ?_).1 _ (.int 3) rfl rfl rfl ?_⟩
  · simp [Call.Checked]
  · simp [BodyCall.InRange, readFive]
  · simp [Call.All, Loop.All, Pause.All, readFive, Callback.FitsInt]
  · simp [BodyCall.FlagStays, BodyCall.looks, readFive]
  · show (3 : Int) < 0 + 5
    decide

end Chttpc
