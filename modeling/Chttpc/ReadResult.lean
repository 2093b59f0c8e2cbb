import Chttpc.PauseBits
import Chttpc.ShortReads

/-!
# What a read hands back

`read` answers with the number of bytes it has copied, or -1 at the end of the response,
and Java returns the answer or reports it in an `InterruptedIOException`.  A call
`HandsBack` what it has copied if that is so.

It is not always so.  With `count == 1` the answer is `readOffset`, the cell a call
without an array leaves its byte in; with an array it is where the next byte would go.
And a call that has been interrupted behind the native method's last look at the flag
reports the -1 of an end as a number of bytes.  `hands_back_iff` says that there is
nothing else: what decides is whether the call comes to the end of the transfer without
having been offered a byte that is new (`BodyCall.Empty`).
-/

namespace Chttpc
open Program

/-! ## New bytes -/

namespace Transfer

/-- The callback is handed bytes that have not been copied. -/
def offersNew (t : Transfer) : Callback → Bool
  | .body n =>
      t.curl.attached && t.curl.writeFunction == .writeCallback &&
        decide (t.ctrl.readOverflow < (t.curl.offer n).length)
  | _ => false

/-- One of the callbacks is. -/
def offersAny : List Callback → Transfer → Bool
  | [], _ => false
  | callback :: callbacks, t => t.offersNew callback || offersAny callbacks (t.invoke callback)

variable {t : Transfer} {callback : Callback}

@[simp] theorem invoke_writeFunction :
    (t.invoke callback).curl.writeFunction = t.curl.writeFunction := by
  unfold invoke
  split
  · cases callback with
    | header line => rfl
    | errorText text => rfl
    | upload capacity =>
      show (Libcurl.afterRead _ _ _).writeFunction = _
      rw [Libcurl.afterRead_eq]
    | body n =>
      unfold handle
      dsimp only
      split
      · show (Libcurl.afterWrite _ _ _).writeFunction = _
        rw [Libcurl.afterWrite_eq]
      · rfl
      · rfl
  · rfl

/-- Nothing is offered to another write function. -/
theorem offersAny_of_writeFunction : ∀ (callbacks : List Callback) {t : Transfer},
    t.curl.writeFunction ≠ .writeCallback → offersAny callbacks t = false
  | [], _, _ => rfl
  | callback :: callbacks, t, h => by
      have hnew : t.offersNew callback = false := by
        cases callback with
        | body n => simp [offersNew, h]
        | _ => rfl
      rw [offersAny, hnew, Bool.false_or]
      exact offersAny_of_writeFunction callbacks (by rwa [invoke_writeFunction])

theorem offersAny_detached : ∀ (callbacks : List Callback) {t : Transfer},
    t.curl.attached = false → offersAny callbacks t = false
  | [], _, _ => rfl
  | callback :: callbacks, t, h => by
      have hnew : t.offersNew callback = false := by
        cases callback with
        | body n => simp [offersNew, h]
        | _ => rfl
      have hinvoke : t.invoke callback = t := if_neg (by rw [h]; decide)
      rw [offersAny, hnew, hinvoke, Bool.false_or]
      exact offersAny_detached callbacks h

/-- A callback copies behind what has been copied. -/
theorem copied_invoke (t : Transfer) (callback : Callback) :
    t.copied <+: (t.invoke callback).copied := by
  unfold invoke
  split
  · cases callback with
    | body n =>
      unfold handle
      dsimp only
      split
      · exact List.prefix_append _ _
      · exact List.prefix_refl _
      · exact List.prefix_refl _
    | _ => exact List.prefix_refl _
  · exact List.prefix_refl _

theorem copied_invokeAll : ∀ (callbacks : List Callback) (t : Transfer),
    t.copied <+: (t.invokeAll callbacks).copied
  | [], _ => List.prefix_refl _
  | callback :: callbacks, t =>
      (t.copied_invoke callback).trans (copied_invokeAll callbacks (t.invoke callback))

end Transfer

/-- A chunk with a new byte leaves a byte in the array, if one is asked for. -/
theorem CurlData.writeCallback_bytes {ctrl : CurlData} (platform : Platform) {chunk : List UInt8}
    (hlen : chunk.length < 2 ^ 31) (hmetered : ctrl.Metered) (hroom : ctrl.Room)
    (hcount : ctrl.countToRead ≠ 0) :
    (ctrl.writeCallback platform chunk).bytes = [] ↔ ¬ ctrl.readOverflow < chunk.length := by
  have hint : toInt32 chunk.length = chunk.length := toInt32_of_nat hlen
  have hnonneg := hmetered.countToRead
  have hoverflow := hmetered.readOverflow
  unfold CurlData.writeCallback
  rw [if_neg hcount]
  dsimp only
  rw [hint]
  split
  · rename_i hcovered
    exact ⟨fun _ => by omega, fun _ => rfl⟩
  rename_i hcovered
  have hptr : ((chunk.drop ctrl.readOverflow.toNat).length : Int) =
      chunk.length - ctrl.readOverflow := by
    rw [List.length_drop]
    omega
  have hne : chunk.drop ctrl.readOverflow.toNat ≠ [] := by
    rw [← List.length_pos_iff]
    omega
  rw [← hptr]
  obtain ⟨htaken, hbytes, -⟩ := takeReceived_spec platform hroom hcount hne
  generalize ctrl.takeReceived platform (chunk.drop ctrl.readOverflow.toNat)
    (chunk.drop ctrl.readOverflow.toNat).length = taken at htaken hbytes ⊢
  have hsome : taken.bytes ≠ [] := by
    rw [← List.length_pos_iff, hbytes, List.length_take]
    omega
  split
  · exact ⟨fun h => absurd h hsome, fun h => absurd (by omega) h⟩
  · exact ⟨fun h => absurd h hsome, fun h => absurd (by omega) h⟩

/-- What has grown has grown for good. -/
theorem ne_of_prefix {before later last : List UInt8} (h : before <+: later) (hlast : later <+: last)
    (hne : later ≠ before) : last ≠ before := by
  rintro rfl
  exact hne (h.eq_of_length (Nat.le_antisymm h.length_le hlast.length_le)).symm

namespace Reading
variable {r : BodyCall} {before : List UInt8} {t t' : Transfer}

theorem copied_invoke_iff (hr : r.InRange) (hcount : 1 ≤ r.count) (h : Reading r before t)
    (hsame : t.copied = before) {callback : Callback} (hok : callback.FitsInt) :
    (t.invoke callback).copied ≠ before ↔ t.offersNew callback = true := by
  unfold Transfer.invoke
  cases hattached : t.curl.attached with
  | false =>
    rw [if_neg (by decide)]
    have hnew : t.offersNew callback = false := by
      cases callback with
      | body n => simp [Transfer.offersNew, hattached]
      | _ => rfl
    simp [hsame, hnew]
  | true =>
    rw [if_pos rfl]
    cases callback with
    | header line => simp [Transfer.handle, Transfer.offersNew, hsame]
    | errorText text => simp [Transfer.handle, Transfer.offersNew, hsame]
    | upload capacity => simp [Transfer.handle, Transfer.sendChunk, Transfer.offersNew, hsame]
    | body n =>
      unfold Transfer.handle Transfer.offersNew
      dsimp only
      rw [hattached]
      cases hfunction : t.curl.writeFunction with
      | skipReceiveCallback => simp [hsame]
      | abortReceiveCallback => simp [hsame]
      | writeCallback =>
        obtain ⟨bytes, hcopied, hholds⟩ := h.counted
        have hnil : bytes = [] := List.append_right_eq_self.mp (hcopied.symm.trans hsame)
        subst hnil
        have hleft : t.ctrl.countToRead = r.count := hholds.2.1.trans (Int.sub_zero _)
        have hlength : (t.curl.offer n).length < 2 ^ 31 := by
          have hn : n < 2 ^ 31 := hok
          rw [Libcurl.offer, List.length_take]
          omega
        have hbytes := CurlData.writeCallback_bytes t.platform hlength (h.metered hr) (hholds.room hr)
          (by omega)
        have hchunk : (t.receiveChunk n).copied =
            t.copied ++ (t.ctrl.writeCallback t.platform (t.curl.offer n)).bytes := rfl
        dsimp only
        rw [hchunk, hsame, Ne, List.append_right_eq_self, hbytes]
        simp

/-- **A `read` has copied something exactly when it has been offered something new.** -/
theorem copied_invokeAll_iff (hr : r.InRange) (hcount : 1 ≤ r.count) :
    ∀ (callbacks : List Callback) {t : Transfer}, Reading r before t → t.copied = before →
      (∀ callback ∈ callbacks, callback.FitsInt) →
      ((t.invokeAll callbacks).copied ≠ before ↔ Transfer.offersAny callbacks t = true)
  | [], t, _, hsame, _ => by simp [Transfer.invokeAll, Transfer.offersAny, hsame]
  | callback :: callbacks, t, h, hsame, hok => by
      have hfirst := hok callback List.mem_cons_self
      have hiff := h.copied_invoke_iff hr hcount hsame hfirst
      have hnext : Reading r before (t.invoke callback) := (Reading.invariant hr).invoke hfirst h
      rw [Transfer.offersAny]
      cases hnew : t.offersNew callback with
      | true =>
        rw [hnew] at hiff
        have hgrown := hiff.mpr rfl
        have hlater : (t.invoke callback).copied <+: (t.invokeAll (callback :: callbacks)).copied :=
          Transfer.copied_invokeAll callbacks _
        have hprefix : before <+: (t.invoke callback).copied := hsame ▸ t.copied_invoke callback
        simpa using ne_of_prefix hprefix hlater hgrown
      | false =>
        rw [hnew] at hiff
        have hstill : (t.invoke callback).copied = before := by
          by_contra hne
          cases hiff.mp hne
        rw [Bool.false_or]
        exact copied_invokeAll_iff hr hcount callbacks hnext hstill
          fun c hc => hok c (List.mem_cons_of_mem _ hc)

end Reading

/-! ## The passes that offer something -/

theorem Iterated.copied {it : Iteration} {timer : Timer} {t t' : Transfer} {flow : Flow}
    (h : Iterated it timer t t' flow) :
    t'.copied = if it.interrupted then t.copied else (t.invokeAll it.perform.callbacks).copied := by
  have hwaited : ∀ t : Transfer, (t.waited it timer).copied = t.copied := by
    intro t
    unfold Transfer.waited
    split <;> rfl
  cases h with
  | interrupted hinterrupted => rw [if_pos hinterrupted]
  | multiError hinterrupted _ _ => rw [hinterrupted]; rfl
  | completed hinterrupted _ _ => rw [hinterrupted]; rfl
  | bails hinterrupted _ _ _ => rw [hinterrupted]; rfl
  | idle hinterrupted _ _ _ => rw [hinterrupted]; rfl
  | interruptedAgain hinterrupted _ _ _ _ _ => rw [hinterrupted]; rfl
  | waits hinterrupted _ _ _ _ _ hwait =>
    rw [hinterrupted]
    cases hwait with
    | waitError _ _ _ => exact hwaited _
    | rearmed _ _ => exact hwaited _
    | timedOut _ _ _ => exact hwaited _
    | counted _ _ _ => exact hwaited _

/-- The pass calls libcurl, which hands over a new byte. -/
def Pass.offers (pass : Pass) : Bool :=
  !pass.it.interrupted && Transfer.offersAny pass.it.perform.callbacks pass.before

theorem Transfer.copied_iterateAll : ∀ (iterations : List Iteration) {timer : Timer}
    {t t' : Transfer} {ended : Bool}, iterateAll iterations timer t = (t', some ended) →
      t.copied <+: t'.copied
  | [], _, _, _, _, h => nomatch h
  | it :: iterations, timer, t, t', ended, h => by
      obtain ⟨s, flow, hrun, hflow⟩ := bind_eq_some h
      have hstep : t.copied <+: s.copied := by
        rw [(Iterated.of_iterate hrun).copied]
        split
        · exact List.prefix_refl _
        · exact t.copied_invokeAll _
      cases flow with
      | stop result =>
        cases hflow
        exact hstep
      | again timer' => exact hstep.trans (copied_iterateAll iterations hflow)

namespace Reading
variable {r : BodyCall} {before : List UInt8} {t t' : Transfer}

theorem copied_iterate_iff (hr : r.InRange) (hcount : 1 ≤ r.count) (h : Reading r before t)
    (hsame : t.copied = before) {it : Iteration} {timer : Timer} {flow : Flow}
    (hok : ∀ callback ∈ it.perform.callbacks, callback.FitsInt)
    (hrun : Transfer.iterate it timer t = (t', some flow)) :
    t'.copied ≠ before ↔ (Pass.mk it timer t).offers = true := by
  rw [(Iterated.of_iterate hrun).copied, Pass.offers]
  cases it.interrupted with
  | true => simp [hsame]
  | false => simpa using h.copied_invokeAll_iff hr hcount it.perform.callbacks hsame hok

theorem copied_loop_iff (hr : r.InRange) (hcount : 1 ≤ r.count) :
    ∀ (iterations : List Iteration) {timer : Timer} {t t' : Transfer} {ended : Bool},
      Reading r before t → t.copied = before →
      (∀ it ∈ iterations, ∀ callback ∈ it.perform.callbacks, callback.FitsInt) →
      Transfer.iterateAll iterations timer t = (t', some ended) →
      (t'.copied ≠ before ↔ ∃ pass ∈ Transfer.passes iterations timer t, pass.offers = true)
  | [], _, _, _, _, _, _, _, hrun => nomatch hrun
  | it :: iterations, timer, t, t', ended, h, hsame, hok, hrun => by
      obtain ⟨s, flow, hiterate, hflow⟩ := bind_eq_some hrun
      have hfirst := hok it List.mem_cons_self
      have hiff := h.copied_iterate_iff hr hcount hsame hfirst hiterate
      cases flow with
      | stop result =>
        cases hflow
        rw [Transfer.passes, hiterate, hiff]
        simp
      | again timer' =>
        rw [Transfer.passes_again hiterate]
        simp only [List.mem_cons, exists_eq_or_imp]
        have hkeeps : Keeps (Reading r before) (Transfer.iterate it timer) :=
          (Reading.invariant hr).iterate timer hfirst
        have hnext := keeps_iff.mp hkeeps t h
        rw [hiterate] at hnext
        cases hoffers : (Pass.mk it timer t).offers with
        | true =>
          have hstep : before <+: s.copied := by
            obtain ⟨bytes, hcopied, -⟩ := hnext.counted
            exact ⟨bytes, hcopied.symm⟩
          simpa using ne_of_prefix hstep (Transfer.copied_iterateAll iterations hflow)
            (hiff.mpr hoffers)
        | false =>
          have hstill : s.copied = before := by
            by_contra hne
            rw [hiff.mp hne] at hoffers
            cases hoffers
          simpa using copied_loop_iff hr hcount iterations hnext hstill
            (fun it hit => hok it (List.mem_cons_of_mem _ hit)) hflow

end Reading

/-- The call hands a byte that has not been copied to `write_callback`: while receiving is
resumed, or in the loop. -/
def BodyCall.Offered (r : BodyCall) (t : Transfer) : Prop :=
  (t.ctrl.state.recvPaused = true ∧ Transfer.offersAny r.pause.callbacks
      { (t.reading r).modify (·.setRecvPaused false) with curl := t.curl.unpause } = true) ∨
    ∃ s, Transfer.resumeReceiving r.pause (t.reading r) = (s, some .ok) ∧ r.interrupted = false ∧
      ∃ pass ∈ Transfer.loopPasses r.loop s, pass.offers = true

theorem Reading.resumed_copied_iff {r : BodyCall} {t s : Transfer} {code : CURLcode}
    (hr : r.InRange) (hcount : 1 ≤ r.count) (hpause : r.pause.All Callback.FitsInt)
    (hmetered : t.ctrl.Metered) (hneed : t.ctrl.state.needOutput = false)
    (h : Transfer.resumeReceiving r.pause (t.reading r) = (s, some code)) :
    s.copied ≠ t.copied ↔ t.ctrl.state.recvPaused = true ∧
      Transfer.offersAny r.pause.callbacks
        { (t.reading r).modify (·.setRecvPaused false) with curl := t.curl.unpause } = true := by
  rw [Transfer.resumeReceiving, Transfer.resume_eq] at h
  have hflag : (t.reading r).ctrl.state.recvPaused = t.ctrl.state.recvPaused := rfl
  rw [hflag] at h
  cases hpaused : t.ctrl.state.recvPaused with
  | false =>
    rw [hpaused, if_neg (by decide)] at h
    cases h
    simp [Transfer.reading, Transfer.modify, Transfer.entered]
  | true =>
    rw [hpaused, if_pos rfl] at h
    have hcleared := Reading.cleared hr hmetered hneed
    have hs : s = Transfer.invokeAll
        { (t.reading r).modify (·.setRecvPaused false) with curl := t.curl.unpause }
        r.pause.callbacks := (congrArg Prod.fst h).symm
    have hiff := hcleared.copied_invokeAll_iff hr hcount r.pause.callbacks rfl hpause
    rw [hs]
    simpa using hiff

/-- **A `read` copies something exactly when something new is offered.** -/
theorem ReadExit.copied_iff {r : BodyCall} {t t' : Transfer} {value : Int} (hr : r.InRange)
    (hcount : 1 ≤ r.count) (hok : (Call.read r).All Callback.FitsInt) (hmetered : t.ctrl.Metered)
    (hneed : t.ctrl.state.needOutput = false) (h : ReadExit r (t.reading r) t' value) :
    t'.copied ≠ t.copied ↔ r.Offered t := by
  unfold BodyCall.Offered
  have hresumed := fun {s : Transfer} {code : CURLcode}
      (hs : Transfer.resumeReceiving r.pause (t.reading r) = (s, some code)) =>
    Reading.resumed_copied_iff hr hcount hok.1 hmetered hneed hs
  have hloop : ∀ {s s' : Transfer} {ended : Bool},
      Transfer.resumeReceiving r.pause (t.reading r) = (s, some .ok) → r.interrupted = false →
      Transfer.curlPerform r.loop s = (s', some ended) → (s'.copied ≠ t.copied ↔
        (t.ctrl.state.recvPaused = true ∧ Transfer.offersAny r.pause.callbacks
            { (t.reading r).modify (·.setRecvPaused false) with curl := t.curl.unpause } = true) ∨
          ∃ s, Transfer.resumeReceiving r.pause (t.reading r) = (s, some .ok) ∧
            r.interrupted = false ∧ ∃ pass ∈ Transfer.loopPasses r.loop s, pass.offers = true) := by
    intro s s' ended hresume hinterrupted hperform
    have hreading := Reading.resumed hr hok.1 hmetered hneed hresume
    rw [← hresumed hresume]
    by_cases hgrown : s.copied = t.copied
    · rw [hreading.copied_loop_iff hr hcount _ hgrown hok.2 hperform]
      constructor
      · exact fun hpass => .inr ⟨s, hresume, hinterrupted, hpass⟩
      · rintro (hne | ⟨s, hs, -, hpass⟩)
        · exact absurd hgrown hne
        · cases hresume.symm.trans hs
          exact hpass
    · obtain ⟨bytes, hcopied, -⟩ := hreading.counted
      have hlast : s'.copied ≠ t.copied :=
        ne_of_prefix ⟨bytes, hcopied.symm⟩ (Transfer.copied_iterateAll _ hperform) hgrown
      simp [hlast, hgrown]
  cases h with
  | refused hresume hcode =>
    refine (hresumed hresume).trans ⟨.inl, fun hoffered => hoffered.resolve_right ?_⟩
    rintro ⟨s, hs, -⟩
    cases hresume.symm.trans hs
    exact hcode rfl
  | interrupted hresume hinterrupted =>
    refine (hresumed hresume).trans ⟨.inl, fun hoffered => hoffered.resolve_right ?_⟩
    rintro ⟨s, -, hflag, -⟩
    rw [hinterrupted] at hflag
    cases hflag
  | drained hresume hinterrupted hperform _ => exact hloop hresume hinterrupted hperform
  | success hresume hinterrupted hperform _ => exact hloop hresume hinterrupted hperform

/-! ## The write function -/

/-- A transfer whose response nobody has asked for does not go to `write_callback`. -/
structure Wired (t : Transfer) : Prop where
  attached : t.curl.attached = t.ctrl.state.attached
  output : t.curl.attached = true → t.ctrl.state.doInput = false →
    t.curl.writeFunction ≠ .writeCallback

namespace Wired

protected theorem invariant : Transfer.Invariant Wired fun _ => True where
  io := fun _ _ hio h => ⟨h.attached.trans (congrArg (·.state.attached) hio).symm,
    fun hattached hinput => h.output hattached ((congrArg (·.state.doInput) hio).symm.trans hinput)⟩
  receive := by
    intro t n _ _ h
    unfold Transfer.receiveChunk
    dsimp only
    rw [CurlData.writeCallback_eq, Libcurl.afterWrite_eq]
    exact ⟨h.attached, h.output⟩
  send := by
    intro t capacity _ _ h
    unfold Transfer.sendChunk
    dsimp only
    rw [Libcurl.afterRead_eq]
    split
    · rw [CurlData.readCallback_eq]
      exact ⟨h.attached, h.output⟩
    · exact ⟨h.attached, h.output⟩
  wait := fun _ _ h => ⟨h.attached, h.output⟩

theorem attach (c : Configure) {t : Transfer} (h : Wired t) : Wired (c.attach t) := by
  have hfunction : c.doInput = false →
      (c.setCurl t.ctrl.outHeaders t.curl).writeFunction ≠ .writeCallback := by
    intro hinput
    unfold Configure.setCurl
    dsimp only
    rw [hinput, if_neg (by decide)]
    split <;> decide
  unfold Configure.attach
  dsimp only
  split
  · exact ⟨h.attached, fun _ => hfunction⟩
  · exact ⟨rfl, fun _ => hfunction⟩

protected theorem lines : Transfer.Lines Wired fun _ => True where
  lock := fun _ _ _ h => ⟨h.attached, h.output⟩
  wire := fun _ _ hwire h => ⟨h.attached.trans (congrArg (·.state.attached) hwire).symm,
    fun hattached hinput => h.output hattached ((congrArg (·.state.doInput) hwire).symm.trans hinput)⟩
  beginConfigure := fun _ _ _ h => ⟨h.attached, h.output⟩
  attach := fun _ c _ h => h.attach c
  beginRead := fun _ _ _ h => ⟨h.attached, h.output⟩
  beginWrite := fun _ _ h => ⟨h.attached, h.output⟩
  beginClose := fun _ h => ⟨h.attached, h.output⟩
  needInput := fun _ h => ⟨h.attached, h.output⟩
  needOutput := fun _ h => ⟨h.attached, h.output⟩
  resumeReceiving := fun _ h => ⟨h.attached, h.output⟩
  resumeSending := fun _ h => ⟨h.attached, h.output⟩
  reset := by
    intro t _ h
    unfold Transfer.detach
    split
    · exact ⟨rfl, (nomatch ·)⟩
    · rename_i hdetached
      have hcurl : t.curl.attached = false := h.attached.trans (Bool.eq_false_iff.mpr hdetached)
      refine ⟨hcurl, fun hattached => ?_⟩
      rw [show t.curl.attached = true from hattached] at hcurl
      cases hcurl

theorem run {platform : Platform} {rodata : Nat → UInt8} {calls : List Call} {t : Transfer}
    (hrun : runCalls calls (.fresh platform rodata) = (t, some ())) : Wired t := by
  have hkeeps : Keeps Wired (runCalls calls) :=
    Keeps.forEach fun call _ => Wired.lines.keeps_run Wired.invariant trivial call.all_true
  have h := keeps_iff.mp hkeeps (.fresh platform rodata) ⟨rfl, (nomatch ·)⟩
  rwa [hrun] at h

/-- Nothing is offered to a `read` of a response nobody has asked for. -/
theorem offersAny {t : Transfer} (h : Wired t) (hinput : t.ctrl.state.doInput = false)
    (callbacks : List Callback) : Transfer.offersAny callbacks t = false := by
  cases hattached : t.curl.attached with
  | false => exact Transfer.offersAny_detached callbacks hattached
  | true => exact Transfer.offersAny_of_writeFunction callbacks (h.output hattached hinput)

end Wired

/-! ## The answer -/

namespace BodyCall
variable (r : BodyCall) (t : Transfer)

/-- The call finds that the transfer is over: receiving cannot be resumed, or the loop has
come to its end without an interruption. -/
def Ends : Prop :=
  (∃ s code, Transfer.resumeReceiving r.pause (t.reading r) = (s, some code) ∧ code ≠ .ok) ∨
    (r.interrupted = false ∧ r.interruptedAgain = false ∧ r.Finishes t)

/-- The transfer ends in the call, and no new byte is offered before. -/
def Empty : Prop := r.Ends t ∧ ¬ r.Offered t

end BodyCall

/-- **What a `read` hands back is what it has copied**: the bytes lie in the array from
`off` on, and their number is what is returned, or reported with an interruption.  A call
that is not interrupted and has copied nothing because the transfer is over returns
-1. -/
def HandsBack (s : StreamCall) (r : BodyCall) (buf : List UInt8) (t t' : Transfer)
    (result : Except Thrown Int) : Prop :=
  ∃ bytes, t'.copied = t.copied ++ bytes ∧
    t'.ctrl.bufferForReceiving = some (overwrite buf r.off bytes) ∧
    (s.interruptedAfter = true → result = .error (.interruptedIo bytes.length)) ∧
    (s.interruptedAfter = false →
      (bytes = [] ∧ r.Ends t → result = .ok (-1)) ∧
      (¬ (bytes = [] ∧ r.Ends t) → result = .ok bytes.length))

section Answer
variable {s : StreamCall} {r : BodyCall} {buf : List UInt8} {t t' : Transfer} {value : Int}

/-- What the value has to be. -/
theorem handsBack_iff_value {bytes : List UInt8} (hcopied : t'.copied = t.copied ++ bytes)
    (harray : t'.ctrl.bufferForReceiving = some (overwrite buf r.off bytes)) :
    HandsBack s r buf t t'
        (if s.interruptedAfter then .error (.interruptedIo value) else .ok value) ↔
      (s.interruptedAfter = true → value = bytes.length) ∧
        (s.interruptedAfter = false → (bytes = [] ∧ r.Ends t → value = -1) ∧
          (¬ (bytes = [] ∧ r.Ends t) → value = bytes.length)) := by
  constructor
  · rintro ⟨bytes', hcopied', -, hreport, hreturn⟩
    cases List.append_cancel_left (hcopied.symm.trans hcopied')
    cases hafter : s.interruptedAfter with
    | true => simpa [hafter] using hreport hafter
    | false => simpa [hafter] using hreturn hafter
  · rintro ⟨hreport, hreturn⟩
    refine ⟨bytes, hcopied, harray, fun hafter => ?_, fun hafter => ?_⟩
    · simpa [hafter] using hreport hafter
    · simpa [hafter] using hreturn hafter

theorem BodyCall.Holds.readValue {bytes : List UInt8} {ctrl : CurlData} (hbuf : r.buf = some buf)
    (h : r.Holds bytes ctrl) :
    ctrl.readValue r.count = if r.count = 1 then r.off + bytes.length else (bytes.length : Int) := by
  obtain ⟨-, hcount, harray⟩ := h
  rw [hbuf] at harray
  unfold CurlData.readValue
  rw [harray.2, hcount]
  split <;> omega

/-- **The answer of the native method**, by whether the call is empty. -/
theorem ReadExit.answer (hbuf : r.buf = some buf) (hr : r.InRange) (hcount : 1 ≤ r.count)
    (hok : (Call.read r).All Callback.FitsInt) (hmetered : t.ctrl.Metered) (hwired : Wired t)
    (hneed : t.ctrl.state.needOutput = false) (h : ReadExit r (t.reading r) t' value)
    (hpending : t'.ctrl.env.pending = none) :
    ∃ bytes, t'.copied = t.copied ++ bytes ∧
      t'.ctrl.bufferForReceiving = some (overwrite buf r.off bytes) ∧
      (r.Empty t ↔ bytes = [] ∧ r.Ends t) ∧ (r.Empty t → value = -1) ∧
      (¬ r.Empty t → value = if r.count = 1 then r.off + bytes.length else (bytes.length : Int)) := by
  have hoffered := h.copied_iff hr hcount hok hmetered hneed
  have hends : ∀ {s : Transfer}, Transfer.resumeReceiving r.pause (t.reading r) = (s, some .ok) →
      (r.Ends t ↔ r.interrupted = false ∧ r.interruptedAgain = false ∧ r.Finishes t) := by
    intro s hresume
    refine ⟨fun hends => hends.resolve_left ?_, .inr⟩
    rintro ⟨s', code, hrefused, hcode⟩
    cases hresume.symm.trans hrefused
    exact hcode rfl
  have harray : ∀ {s : Transfer} {bytes : List UInt8}, r.Holds bytes s.ctrl →
      s.ctrl.bufferForReceiving = some (overwrite buf r.off bytes) := by
    rintro s bytes ⟨-, -, hholds⟩
    rw [hbuf] at hholds
    exact hholds.1
  have hempty : ∀ {bytes : List UInt8}, t'.copied = t.copied ++ bytes →
      (r.Empty t ↔ bytes = [] ∧ r.Ends t) := by
    intro bytes hcopied
    rw [BodyCall.Empty, ← hoffered, hcopied, not_not, List.append_right_eq_self]
    exact and_comm
  cases h with
  | refused hresume hcode =>
    rename_i s code
    -- an error that raises nothing is the one of a response nobody has asked for
    have hinput : t.ctrl.state.doInput = false :=
      Bool.eq_false_iff.mpr fun hinput => pending_refused hinput hresume hpending
    have hcleared : Wired
        { (t.reading r).modify (·.setRecvPaused false) with curl := t.curl.unpause } :=
      ⟨hwired.attached, hwired.output⟩
    have hnone := Reading.resumed_copied_iff hr hcount hok.1 hmetered hneed hresume
    rw [hcleared.offersAny hinput] at hnone
    have hsame : s.copied = t.copied := by simpa using hnone
    obtain ⟨bytes, hcopied, hholds⟩ := (Reading.resumed hr hok.1 hmetered hneed hresume).counted
    have hnil : bytes = [] := List.append_right_eq_self.mp (hcopied.symm.trans hsame)
    have hiff := hempty hcopied
    refine ⟨bytes, hcopied, harray (hholds.of_io (s.ctrl.io_handleEasyError code)), hiff, fun _ => rfl,
      fun hnot => ?_⟩
    exact absurd (hiff.mpr ⟨hnil, .inl ⟨s, code, hresume, hcode⟩⟩) hnot
  | interrupted hresume hinterrupted =>
    obtain ⟨bytes, hcopied, hholds⟩ := (Reading.resumed hr hok.1 hmetered hneed hresume).counted
    refine ⟨bytes, hcopied, harray hholds, hempty hcopied, fun hempty' => ?_,
      fun _ => hholds.readValue hbuf⟩
    have hflag := ((hends hresume).mp hempty'.1).1
    rw [hinterrupted] at hflag
    cases hflag
  | drained hresume hinterrupted hperform hdrained =>
    obtain ⟨hafter, pass, hlast, hpass⟩ :=
      (Reading.resumed hr hok.1 hmetered hneed hresume).loop hr hok.2 hperform
    obtain ⟨bytes, hcopied, hholds⟩ := hafter.counted
    obtain ⟨hagain, hended, -, hfull⟩ := hdrained
    have hnil : bytes = [] := by
      have hleft := hholds.2.1
      rw [← List.length_eq_zero_iff]
      omega
    have hfinishes : pass.Finishes := by
      rcases hafter.last_pass hpass with ⟨-, hraised | hfinishes⟩ | ⟨hnot, -⟩
      · exact absurd hpending hraised
      · exact hfinishes
      · rw [hended] at hnot
        cases hnot
    have hiff := hempty hcopied
    refine ⟨bytes, hcopied, harray hholds, hiff, fun _ => rfl, fun hnot => ?_⟩
    refine absurd (hiff.mpr ⟨hnil, (hends hresume).mpr ⟨hinterrupted, hagain, ?_⟩⟩) hnot
    exact ⟨_, pass, hresume, hlast, hfinishes⟩
  | success hresume hinterrupted hperform hdrained =>
    obtain ⟨hafter, pass, hlast, hpass⟩ :=
      (Reading.resumed hr hok.1 hmetered hneed hresume).loop hr hok.2 hperform
    obtain ⟨bytes, hcopied, hholds⟩ := hafter.counted
    have hiff := hempty hcopied
    refine ⟨bytes, hcopied, harray hholds, hiff, fun hempty' => ?_, fun _ => hholds.readValue hbuf⟩
    obtain ⟨-, hagain, s', pass', hresume', hlast', hfinishes⟩ := (hends hresume).mp hempty'.1
    cases hresume.symm.trans hresume'
    cases hlast.symm.trans hlast'
    have hleft := hholds.2.1
    rw [(hiff.mp hempty').1] at hleft
    have hall : t'.ctrl.countToRead = r.count := hleft.trans (Int.sub_zero _)
    refine absurd ⟨hagain, ?_, by omega, hall⟩ hdrained
    exact (hafter.ended_of_finishes hfinishes hpass).resolve_right (by omega)

end Answer

/-- **What a `read` hands back.**  After any calls, a `read` into an array that returns, or
reports an interruption, hands back what it has copied exactly when, if the transfer
ends in the call and nothing new has been offered, Java has not found an interruption
behind it, and otherwise more than one byte was asked for or the array is filled from
its beginning. -/
theorem hands_back_iff {platform : Platform} {rodata : Nat → UInt8} {calls : List Call}
    {t : Transfer} (hcalls : ∀ call ∈ calls, call.Checked)
    (hrun : runCalls calls (.fresh platform rodata) = (t, some ())) {r : BodyCall}
    {buf : List UInt8} (hbuf : r.buf = some buf) (hr : r.InRange) (hcount : 1 ≤ r.count)
    (hok : (Call.read r).All Callback.FitsInt) {s : StreamCall} (hopen : s.closed = false)
    (hbefore : s.interruptedBefore = false) {t' : Transfer} {result : Except Thrown Int}
    (hread : Transfer.doRead s r t = (t', some result))
    (hnative : ∀ e, result ≠ .error (.native e)) :
    HandsBack s r buf t t' result ↔
      (r.Empty t → s.interruptedAfter = false) ∧ (¬ r.Empty t → r.count ≠ 1 ∨ r.off = 0) := by
  rw [Transfer.doRead, Transfer.stream_eq, if_neg (by rw [hopen]; decide),
    if_neg (by rw [hbefore]; decide)] at hread
  have hbusy : t.ctrl.busy = false := by
    refine Bool.eq_false_iff.mpr fun hbusy => ?_
    rw [Transfer.read, Transfer.acquire_taken hbusy] at hread
    cases hread
    exact hnative _ rfl
  have hneed : t.ctrl.state.needOutput = false :=
    (released_or_taken (released_fresh platform rodata) hrun).elim (·.needOutput)
      fun htaken => by rw [hbusy] at htaken; cases htaken
  rcases hcall : Transfer.read r t with ⟨t₁, _ | returned⟩
  · rw [hcall] at hread
    cases hread
  rw [hcall] at hread
  obtain ⟨t₂, value, hexit, rfl, rfl⟩ := Transfer.exit_of_read hbusy hcall
  cases hread
  have hpending : t₂.ctrl.env.pending = none := by
    rw [← Option.not_isSome_iff_eq_none, Option.isSome_iff_exists]
    rintro ⟨e, he⟩
    refine hnative e ?_
    unfold StreamCall.outcome
    rw [show t₂.left.ctrl.env.pending = some e from he]
  have hresult : s.outcome (.int value) t₂.left =
      if s.interruptedAfter then .error (.interruptedIo value) else .ok value := by
    unfold StreamCall.outcome
    rw [show t₂.left.ctrl.env.pending = none from hpending]
    rfl
  obtain ⟨bytes, hcopied, harray, hempty, hend, hvalue⟩ :=
    hexit.answer hbuf hr hcount hok (CurlData.Metered.run hcalls hrun) (Wired.run hrun) hneed hpending
  have hcopied : t₂.left.copied = t.copied ++ bytes := hcopied
  rw [hresult, handsBack_iff_value hcopied harray, ← hempty]
  by_cases hempty' : r.Empty t
  · have hnil := (hempty.mp hempty').1
    subst hnil
    simp [hend hempty', hempty']
  · have hargs : (if r.count = 1 then r.off + bytes.length else (bytes.length : Int)) =
        bytes.length ↔ r.count ≠ 1 ∨ r.off = 0 := by
      split <;> omega
    rw [hvalue hempty', hargs]
    cases s.interruptedAfter <;> simp [hempty']

theorem hands_back_readFive :
    HandsBack quietCall readFive [0, 0, 0, 0, 0, 0] (downloading [10, 20, 30])
      (Transfer.doRead quietCall readFive (downloading [10, 20, 30])).1 (.ok 3) := by
  have hrun : runCalls [.nativeConfigure (configureSecond [10, 20, 30])]
      (.fresh latinPlatform fun _ => 0) = (downloading [10, 20, 30], some ()) := rfl
  refine (hands_back_iff ?_ hrun rfl ?_ (by decide) ?_ rfl rfl rfl ?_).mpr
    ⟨fun _ => rfl, fun _ => .inl (by decide)⟩
  · simp [Call.Checked]
  · simp [BodyCall.InRange, readFive]
  · simp [Call.All, Loop.All, Pause.All, readFive, Callback.FitsInt]
  · intro e h
    cases h

/-- A `read` of one byte into the middle of an array. -/
def readOneAtTwo : BodyCall where
  buf := some [0, 0, 0, 0]
  off := 2
  count := 1
  pause := ⟨[.body 3], some .ok⟩
  interrupted := false
  loop := ⟨⟨0, 0⟩, [quietIteration []]⟩
  interruptedAgain := false

/-- One byte is copied, and the answer is three: the position behind it. -/
theorem not_hands_back :
    let t := downloading [10, 20, 30]
    let after := Transfer.doRead quietCall readOneAtTwo t
    after.2 = some (.ok 3) ∧ after.1.copied = [10] ∧
      ¬ HandsBack quietCall readOneAtTwo [0, 0, 0, 0] t after.1 (.ok 3) := by
  refine ⟨rfl, rfl, ?_⟩
  rintro ⟨bytes, hcopied, -, -, hreturn⟩
  have hbytes : bytes = [10] := hcopied.symm
  subst hbytes
  have h := (hreturn rfl).2 (by simp)
  injection h with h
  cases h

end Chttpc
