import Chttpc.Download
import Chttpc.Streams

/-!
# A filled read

A `read` that has been given all the bytes it asked for should return.  The loop
leaves it to `STATE_RECV_PAUSED`, which `write_callback` sets when a chunk does not
fit into the array, and when it is called with the array full already.  A chunk that
ends exactly where the array ends is accepted, and the flag stays clear: unless
libcurl offers another chunk at once, or the transfer ends, the loop waits for data
nobody has asked for, and it may time out and lose the bytes.

`filled_read_returns` says that this is the only way: a read whose iterations do not
go on behind such a chunk makes no wait with the array full, comes back, and does not
time out.
-/

namespace Chttpc
open Program

/-! ## Chunks that end with the array -/

/-- The chunk ends where the array ends, if it is offered now. -/
def CurlData.fitsExactly (chunk : List UInt8) (ctrl : CurlData) : Bool :=
  ctrl.countToRead != 0 && toInt32 chunk.length - ctrl.readOverflow == ctrl.countToRead

namespace Transfer

/-- Whether the last chunk offered to `write_callback` has ended where the array ended,
when the callback is made; `last` is the answer for the callbacks before. -/
def exactFit (callback : Callback) (last : Bool) (t : Transfer) : Bool :=
  match callback with
  | .body n =>
      if t.curl.attached && t.curl.writeFunction == .writeCallback then
        t.ctrl.fitsExactly (t.curl.offer n)
      else last
  | _ => last

def exactFits : List Callback → Bool → Transfer → Bool
  | [], last, _ => last
  | callback :: callbacks, last, t => exactFits callbacks (t.exactFit callback last) (t.invoke callback)

end Transfer

/-- Neither an interruption, nor an error, nor the end of the transfer ends the
iteration. -/
def Iteration.GoesOn (it : Iteration) (ctrl : CurlData) : Prop :=
  it.interrupted = false ∧ (∃ running, it.perform.returns = some (.ok, running) ∧ running ≠ 0) ∧
    (ctrl.checkResult it.messages).2 = false ∧ it.interruptedAgain = false

namespace Transfer

/-- No iteration goes on when the last chunk has ended where the array ended. -/
def NoExactFit : List Iteration → Timer → Bool → Transfer → Prop
  | [], _, _, _ => True
  | it :: iterations, timer, last, t =>
      let last' := exactFits it.perform.callbacks last t
      (it.GoesOn (t.invokeAll it.perform.callbacks).ctrl → last' = false) ∧
        match iterate it timer t with
        | (t', some (.again timer')) => NoExactFit iterations timer' last' t'
        | _ => True

/-- Behind the last iteration there is nothing to ask for. -/
theorem noExactFit_singleton {it : Iteration} {timer : Timer} {last : Bool} {t : Transfer}
    (h : exactFits it.perform.callbacks last t = false) : NoExactFit [it] timer last t := by
  refine ⟨fun _ => h, ?_⟩
  split
  · trivial
  · trivial

/-- The handle of a `read`, when its arguments are stored. -/
def reading (r : BodyCall) (t : Transfer) : Transfer := t.entered.modify (·.beginRead r)

/-- What the chunks offered while receiving is resumed have come to. -/
def resumedFit (r : BodyCall) (t : Transfer) : Bool :=
  if t.ctrl.state.recvPaused then
    exactFits r.pause.callbacks false { t.modify (·.setRecvPaused false) with curl := t.curl.unpause }
  else false

end Transfer

/-- No iteration of the `read` goes on when the last chunk has ended where the array
ended. -/
def BodyCall.NoExactFit (r : BodyCall) (t : Transfer) : Prop :=
  match Transfer.resumeReceiving r.pause (t.reading r) with
  | (t', some .ok) =>
      r.interrupted = false →
        Transfer.NoExactFit r.loop.iterations ⟨t'.ctrl.fullTimeout, r.loop.started, 0⟩
          ((t.reading r).resumedFit r) t'
  | _ => True

/-! ## The array and the flag -/

theorem CurlData.writeCallback_filled {ctrl : CurlData} (platform : Platform)
    (chunk : List UInt8) (h : (ctrl.writeCallback platform chunk).ctrl.countToRead = 0) :
    (ctrl.writeCallback platform chunk).ctrl.state.recvPaused = true ∨
      ctrl.fitsExactly chunk = true := by
  unfold writeCallback at h ⊢
  split
  · exact .inl rfl
  · rename_i hcount
    rw [if_neg hcount] at h
    dsimp only at h ⊢
    split
    · rename_i hcovered
      rw [if_pos hcovered] at h
      exact absurd h hcount
    · rename_i hcovered
      rw [if_neg hcovered] at h
      split
      · rename_i hwhole
        rw [if_pos hwhole] at h
        right
        have hleft : ctrl.countToRead - (ctrl.takeReceived platform
            (chunk.drop ctrl.readOverflow.toNat) (toInt32 chunk.length - ctrl.readOverflow)).count =
              0 := h
        rw [fitsExactly, Bool.and_eq_true, bne_iff_ne, beq_iff_eq]
        exact ⟨hcount, by omega⟩
      · exact .inl rfl

/-- A `read` under way that has not timed out: once the array is full, receiving is
paused or the last chunk has ended where the array ended. -/
structure Filling (before : List Wait) (last : Bool) (t : Transfer) : Prop where
  needInput : t.ctrl.state.needInput = true
  filled : t.ctrl.countToRead = 0 → t.ctrl.state.recvPaused = true ∨ last = true
  timely : t.ctrl.env.timedOut = false
  waits : ∃ new, t.waits = before ++ new ∧ ∀ w ∈ new, w.ctrl.countToRead ≠ 0

/-- What a `read` has done when it is over: it has not waited with the array full, and
it has not timed out with the array full. -/
structure Patient (before : List Wait) (t : Transfer) : Prop where
  timeout : t.ctrl.env.timedOut = true → t.ctrl.countToRead ≠ 0
  waits : ∃ new, t.waits = before ++ new ∧ ∀ w ∈ new, w.ctrl.countToRead ≠ 0

namespace Filling
variable {before : List Wait} {last : Bool} {t : Transfer}

theorem patient (h : Filling before last t) : Patient before t where
  timeout := fun htimed => by rw [h.timely] at htimed; cases htimed
  waits := h.waits

/-- Header lines and exceptions for other reasons do not matter. -/
theorem of_io (h : Filling before last t) {ctrl : CurlData} (hio : ctrl.io = t.ctrl.io)
    (htimed : ctrl.env.timedOut = t.ctrl.env.timedOut) : Filling before last { t with ctrl } := by
  have hneed : ctrl.state.needInput = t.ctrl.state.needInput := congrArg (·.state.needInput) hio
  have hcount : ctrl.countToRead = t.ctrl.countToRead := congrArg (·.countToRead) hio
  have hpaused : ctrl.state.recvPaused = t.ctrl.state.recvPaused :=
    congrArg (·.state.recvPaused) hio
  refine ⟨hneed.trans h.needInput, fun hfull => ?_, htimed.trans h.timely, h.waits⟩
  rw [show (({ t with ctrl } : Transfer)).ctrl.state.recvPaused = t.ctrl.state.recvPaused from hpaused]
  exact h.filled (hcount.symm.trans hfull)

theorem receiveChunk (h : Filling before last t) (n : Nat) :
    Filling before (t.ctrl.fitsExactly (t.curl.offer n)) (t.receiveChunk n) := by
  refine ⟨?_, fun hfull => CurlData.writeCallback_filled _ _ hfull, ?_, h.waits⟩
  · show (CurlData.writeCallback _ _ _).ctrl.state.needInput = true
    rw [CurlData.writeCallback_eq]
    exact h.needInput
  · exact (CurlData.timedOut_writeCallback _ _ _).trans h.timely

theorem sendChunk (h : Filling before last t) (capacity : Nat) :
    Filling before last (t.sendChunk capacity) := by
  unfold Transfer.sendChunk
  dsimp only
  split
  · refine ⟨?_, ?_, (CurlData.timedOut_readCallback _ _ _).trans h.timely, h.waits⟩
    · rw [CurlData.readCallback_eq]
      exact h.needInput
    · rw [CurlData.readCallback_eq]
      exact h.filled
  · exact ⟨h.needInput, h.filled, h.timely, h.waits⟩

theorem invoke (h : Filling before last t) (callback : Callback) :
    Filling before (t.exactFit callback last) (t.invoke callback) := by
  unfold Transfer.invoke
  cases hattached : t.curl.attached with
  | false =>
    have hlast : t.exactFit callback last = last := by
      unfold Transfer.exactFit
      split
      · rw [hattached]
        rfl
      · rfl
    rw [hlast]
    exact h
  | true =>
    rw [if_pos rfl]
    cases callback with
    | header line =>
      exact h.of_io (CurlData.io_headerCallback _ line) (CurlData.timedOut_headerCallback _ line)
    | errorText text => exact h.of_io rfl rfl
    | upload capacity => exact h.sendChunk capacity
    | body n =>
      unfold Transfer.handle Transfer.exactFit
      dsimp only
      rw [hattached]
      cases t.curl.writeFunction with
      | writeCallback => exact h.receiveChunk n
      | skipReceiveCallback => exact h
      | abortReceiveCallback => exact h

theorem invokeAll : ∀ (callbacks : List Callback) {last : Bool} {t : Transfer},
    Filling before last t →
      Filling before (Transfer.exactFits callbacks last t) (t.invokeAll callbacks)
  | [], _, _, h => h
  | callback :: callbacks, _, _, h => invokeAll callbacks (h.invoke callback)

/-- With the array full, the loop goes past its exits behind a chunk that has ended
where the array ended. -/
theorem countToRead_ne (h : Filling before false t) (hbails : t.ctrl.bails t.rodata = false) :
    t.ctrl.countToRead ≠ 0 := by
  intro hfull
  have hpaused := (h.filled hfull).resolve_right (by decide)
  simp [CurlData.bails, h.needInput, hpaused] at hbails

end Filling

/-! ## The loop -/

section Loop
variable {before : List Wait} {last : Bool} {t : Transfer}

/-- How an iteration leaves a `read` under way. -/
def Waited (before : List Wait) (last : Bool) : Flow → Transfer → Prop
  | .stop _, t => Patient before t
  | .again _, t => Filling before last t ∧ t.ctrl.countToRead ≠ 0

theorem Filling.throw (h : Filling before last t) {f : CurlData → CurlData}
    (hio : ∀ ctrl : CurlData, (f ctrl).io = ctrl.io)
    (htimed : ∀ ctrl : CurlData, (f ctrl).env.timedOut = ctrl.env.timedOut) :
    Filling before last (t.modify f) := h.of_io (hio t.ctrl) (htimed t.ctrl)

theorem account_spec (it : Iteration) (timer : Timer) :
    Triple (fun t => Filling before last t ∧ t.ctrl.countToRead ≠ 0) (Transfer.account it timer)
      (Waited before last) (Patient before) := by
  unfold Transfer.account
  refine Triple.ite (fun _ => ?_) fun _ => Triple.ite (fun _ => ?_) fun _ => Triple.pure fun _ => id
  · refine Triple.bind (Q := fun _ t => Filling before last t ∧ t.ctrl.countToRead ≠ 0)
      (Triple.read fun _ => id) fun timeout => Triple.pure fun _ => id
  · refine Triple.bind (Q := fun _ => Patient before) (Triple.update fun t ht => ?_) fun _ =>
      Triple.pure fun _ => id
    exact ⟨fun _ => ht.2, ht.1.waits⟩

theorem await_spec (it : Iteration) (timer : Timer) :
    Triple (fun t => Filling before last t ∧ t.ctrl.countToRead ≠ 0) (Transfer.await it timer)
      (Waited before last) (Patient before) := by
  unfold Transfer.await
  refine Triple.ite (fun _ => ?_) fun _ => account_spec it timer
  refine Triple.bind (Q := fun _ t => Filling before last t ∧ t.ctrl.countToRead ≠ 0)
    (Triple.update fun t ht => ?_) fun _ => ?_
  · obtain ⟨new, hwaits, hnew⟩ := ht.1.waits
    refine ⟨⟨ht.1.needInput, ht.1.filled, ht.1.timely, new ++ [⟨t.ctrl, t.curl⟩], ?_, ?_⟩, ht.2⟩
    · show t.waits ++ _ = _
      rw [hwaits, List.append_assoc]
    · intro w hw
      rcases List.mem_append.mp hw with hw | hw
      · exact hnew w hw
      · rw [List.mem_singleton.mp hw]
        exact ht.2
  · refine Triple.bind (Q := fun _ t => Filling before last t ∧ t.ctrl.countToRead ≠ 0)
      (Triple.call (fun _ _ ht _ => ht) fun _ ht => ht.1.patient) fun answer => ?_
    refine Triple.ite (fun _ => ?_) fun _ => account_spec it _
    refine Triple.bind (Q := fun _ => Patient before) (Triple.update fun t ht => ?_) fun _ =>
      Triple.pure fun _ => id
    exact (ht.1.throw (fun ctrl => ctrl.io_handleMultiError _)
      fun ctrl => ctrl.timedOut_handleMultiError _).patient

/-- **One iteration**, if it does not go on behind a chunk that has ended where the
array ended: it does not wait with the array full, and does not come back to the
head of the loop with the array full. -/
theorem iterate_spec (it : Iteration) (timer : Timer) (h : Filling before last t)
    (hfits : it.GoesOn (t.invokeAll it.perform.callbacks).ctrl →
      Transfer.exactFits it.perform.callbacks last t = false) :
    Triple (· = t) (Transfer.iterate it timer)
      (Waited before (Transfer.exactFits it.perform.callbacks last t)) (Patient before) := by
  have hafter := h.invokeAll it.perform.callbacks
  generalize hlast : Transfer.exactFits it.perform.callbacks last t = last' at hafter hfits ⊢
  unfold Transfer.iterate
  refine Triple.ite (fun _ => Triple.pure ?_) fun hinterrupted => ?_
  · rintro t rfl
    exact h.patient
  refine Triple.bind (Q := fun answer s => it.perform.returns = some answer ∧
    s = t.invokeAll it.perform.callbacks) (Triple.call ?_ ?_) fun answer => ?_
  · rintro _ answer rfl hreturns
    exact ⟨hreturns, rfl⟩
  · rintro _ rfl
    exact hafter.patient
  obtain ⟨result, running⟩ := answer
  refine Triple.ite (fun _ => ?_) fun hresult => ?_
  · refine Triple.bind (Q := fun _ => Patient before) (Triple.update ?_) fun _ =>
      Triple.pure fun _ => id
    rintro _ ⟨-, rfl⟩
    exact (hafter.throw (fun ctrl => ctrl.io_handleMultiError _)
      fun ctrl => ctrl.timedOut_handleMultiError _).patient
  refine Triple.bind (Q := fun completed s => it.perform.returns = some (result, running) ∧
    Filling before last' s ∧
    completed = ((t.invokeAll it.perform.callbacks).ctrl.checkResult it.messages).2) ?_
    fun completed => ?_
  · rintro _ ⟨hreturns, rfl⟩
    exact ⟨hreturns, hafter.of_io (Transfer.io_checkResult _ _) (CurlData.timedOut_checkResult _ _),
      rfl⟩
  refine Triple.ite (fun _ => Triple.pure fun _ hs => hs.2.1.patient) fun hcompleted => ?_
  refine Triple.bind (Q := fun bails s => s.ctrl.bails s.rodata = bails ∧
    it.perform.returns = some (result, running) ∧ Filling before last' s ∧
    completed = ((t.invokeAll it.perform.callbacks).ctrl.checkResult it.messages).2)
    (Triple.read fun _ hs => ⟨rfl, hs⟩) fun bails => ?_
  refine Triple.ite (fun _ => Triple.pure fun _ hs => hs.2.2.1.patient) fun hbails => ?_
  refine Triple.ite (fun _ => Triple.pure fun _ hs => hs.2.2.1.patient) fun hrunning => ?_
  refine Triple.ite (fun _ => Triple.pure fun _ hs => hs.2.2.1.patient) fun hagain => ?_
  refine (await_spec it timer).weaken (fun s hs => ?_) (fun _ _ => id) fun _ => id
  obtain ⟨hexits, hreturns, hfilling, hcomplete⟩ := hs
  have hgoes : it.GoesOn (t.invokeAll it.perform.callbacks).ctrl := by
    refine ⟨Bool.not_eq_true _ ▸ hinterrupted, ⟨running, ?_, hrunning⟩, ?_,
      Bool.not_eq_true _ ▸ hagain⟩
    · rw [hreturns, not_not.mp hresult]
    · rw [← hcomplete]
      exact Bool.not_eq_true _ ▸ hcompleted
  have hfalse := hfits hgoes
  subst hfalse
  exact ⟨hfilling, hfilling.countToRead_ne (hexits.trans (Bool.not_eq_true _ ▸ hbails))⟩

/-- Every call of libcurl in the iteration returns. -/
def Iteration.Responds (it : Iteration) : Prop := it.perform.returns ≠ none ∧ it.wait ≠ none

theorem returns_account (it : Iteration) (timer : Timer) : Returns (Transfer.account it timer) := by
  refine Returns.ite (fun _ => ?_) fun _ => Returns.ite (fun _ => ?_) fun _ => Returns.pure _
  · exact Returns.bind (Returns.read _) fun _ => Returns.pure _
  · exact Returns.bind (Returns.update _) fun _ => Returns.pure _

theorem returns_iterate {it : Iteration} (timer : Timer) (h : it.Responds) :
    Returns (Transfer.iterate it timer) := by
  refine Returns.ite (fun _ => Returns.pure _) fun _ => ?_
  refine Returns.bind (Returns.call h.1) fun answer => ?_
  refine Returns.ite (fun _ => ?_) fun _ => ?_
  · exact Returns.bind (Returns.update _) fun _ => Returns.pure _
  refine Returns.bind (fun t => ⟨_, _, rfl⟩) fun completed => ?_
  refine Returns.ite (fun _ => Returns.pure _) fun _ => ?_
  refine Returns.bind (Returns.read _) fun bails => ?_
  refine Returns.ite (fun _ => Returns.pure _) fun _ => ?_
  refine Returns.ite (fun _ => Returns.pure _) fun _ => ?_
  refine Returns.ite (fun _ => Returns.pure _) fun _ => Returns.ite (fun _ => ?_) fun _ => ?_
  · refine Returns.bind (Returns.update _) fun _ => Returns.bind (Returns.call h.2) fun answer => ?_
    refine Returns.ite (fun _ => ?_) fun _ => returns_account it _
    exact Returns.bind (Returns.update _) fun _ => Returns.pure _
  · exact returns_account it timer

/-- **The loop**, from its head: where it stops, the `read` has not waited or timed out
with the array full, and it is not caught at its head with the array full. -/
theorem iterateAll_spec : ∀ (iterations : List Iteration) (timer : Timer) {last : Bool}
    {t : Transfer}, Filling before last t → Transfer.NoExactFit iterations timer last t →
      Patient before (Transfer.iterateAll iterations timer t).1 ∧
        ((∀ it ∈ iterations, it.Responds) → iterations ≠ [] ∨ t.ctrl.countToRead ≠ 0 →
          (Transfer.iterateAll iterations timer t).2 = none →
            (Transfer.iterateAll iterations timer t).1.ctrl.countToRead ≠ 0)
  | [], _, _, _, h, _ => ⟨h.patient, fun _ hne _ => hne.resolve_left (absurd rfl)⟩
  | it :: iterations, timer, last, t, h, hfits => by
      have hiterate := iterate_spec it timer h hfits.1 t rfl
      have hrest := hfits.2
      unfold Transfer.iterateAll
      rcases hrun : Transfer.iterate it timer t with ⟨t', _ | flow⟩
      · rw [hrun] at hiterate
        rw [bind_none hrun]
        refine ⟨hiterate, fun hresponds _ _ => ?_⟩
        obtain ⟨t'', flow, hreturn⟩ := returns_iterate timer (hresponds it List.mem_cons_self) t
        rw [hrun] at hreturn
        cases hreturn
      · rw [hrun] at hiterate hrest
        rw [bind_some hrun]
        cases flow with
        | stop result => exact ⟨hiterate, fun _ _ hnone => nomatch hnone⟩
        | again timer' =>
          obtain ⟨hpatient, hcaught⟩ := iterateAll_spec iterations timer' hiterate.1 hrest
          exact ⟨hpatient, fun hresponds _ =>
            hcaught (fun it hit => hresponds it (List.mem_cons_of_mem _ hit)) (.inr hiterate.2)⟩

end Loop

/-! ## The method -/

/-- Every call of libcurl in the `read` returns. -/
def BodyCall.Responds (r : BodyCall) : Prop :=
  r.pause.returns ≠ none ∧ ∀ it ∈ r.loop.iterations, it.Responds

section Read
variable {r : BodyCall} {t : Transfer}

theorem Filling.reading (hcount : r.count ≠ 0) : Filling t.waits false (t.reading r) where
  needInput := rfl
  filled := fun hfull => absurd hfull hcount
  timely := rfl
  waits := ⟨[], (List.append_nil t.waits).symm, fun _ hw => nomatch hw⟩

theorem resume_spec (hcount : r.count ≠ 0) :
    Triple (· = t.reading r) (Transfer.resumeReceiving r.pause)
      (fun _ => Filling t.waits ((t.reading r).resumedFit r)) (Patient t.waits) := by
  have hreading : Filling t.waits false (t.reading r) := Filling.reading hcount
  cases hpaused : (t.reading r).ctrl.state.recvPaused with
  | false =>
    have hfit : (t.reading r).resumedFit r = false := if_neg (by rw [hpaused]; decide)
    rintro _ rfl
    rw [Transfer.resumeReceiving, Transfer.resume_eq, if_neg (by rw [hpaused]; decide), hfit]
    exact hreading
  | true =>
    have hfit : (t.reading r).resumedFit r = Transfer.exactFits r.pause.callbacks false
        { (t.reading r).modify (·.setRecvPaused false) with curl := (t.reading r).curl.unpause } :=
      if_pos hpaused
    rintro _ rfl
    have hcleared : Filling t.waits false
        { (t.reading r).modify (·.setRecvPaused false) with curl := (t.reading r).curl.unpause } :=
      ⟨rfl, fun hfull => absurd hfull hcount, rfl, hreading.waits⟩
    have hresumed := hcleared.invokeAll r.pause.callbacks
    rw [Transfer.resumeReceiving, Transfer.resume_eq, if_pos hpaused, hfit]
    exact Triple.call (P := (· = (t.reading r).modify (·.setRecvPaused false)))
      (fun _ _ hs _ => by rw [hs]; exact hresumed) (fun _ hs => by rw [hs]; exact hresumed.patient) _ rfl

theorem returns_resume {flag : StateBits → Bool} {clear : CurlData → CurlData} {pause : Pause}
    (h : pause.returns ≠ none) : Returns (Transfer.resume flag clear pause) := by
  refine Returns.bind (Returns.read _) fun _ => Returns.ite (fun _ => ?_) fun _ => Returns.pure _
  exact Returns.bind (Returns.update _) fun _ => Returns.call h

theorem receive_spec (hcount : r.count ≠ 0) (hfits : r.NoExactFit t) :
    Patient t.waits (Transfer.receive r (t.reading r)).1 ∧
      (r.Responds → r.loop.iterations ≠ [] → (Transfer.receive r (t.reading r)).2 = none →
        (Transfer.receive r (t.reading r)).1.ctrl.countToRead ≠ 0) := by
  have hresume := resume_spec hcount (t.reading r) rfl
  unfold BodyCall.NoExactFit at hfits
  unfold Transfer.receive
  rcases hrun : Transfer.resumeReceiving r.pause (t.reading r) with ⟨t', _ | code⟩
  · rw [hrun] at hresume
    rw [bind_none hrun]
    refine ⟨hresume, fun hresponds _ _ => ?_⟩
    have hreturns : Returns (Transfer.resumeReceiving r.pause) := returns_resume hresponds.1
    obtain ⟨t'', code, hreturn⟩ := hreturns (t.reading r)
    cases hrun.symm.trans hreturn
  rw [hrun] at hresume hfits
  rw [bind_some hrun]
  by_cases hcode : code = .ok
  · subst hcode
    rw [if_neg (not_not.mpr rfl)]
    by_cases hinterrupted : r.interrupted = true
    · rw [if_pos hinterrupted]
      exact ⟨hresume.patient, fun _ _ hnone => nomatch hnone⟩
    · rw [if_neg hinterrupted]
      have hloop := iterateAll_spec r.loop.iterations ⟨t'.ctrl.fullTimeout, r.loop.started, 0⟩ hresume
        (hfits (Bool.not_eq_true _ ▸ hinterrupted))
      have hperform : Transfer.curlPerform r.loop t' = Transfer.iterateAll r.loop.iterations
          ⟨t'.ctrl.fullTimeout, r.loop.started, 0⟩ t' := rfl
      rcases hend : Transfer.curlPerform r.loop t' with ⟨t'', _ | ended⟩
      · rw [← hperform, hend] at hloop
        rw [bind_none hend]
        exact ⟨hloop.1, fun hresponds hne _ => hloop.2 hresponds.2 (.inl hne) rfl⟩
      · rw [← hperform, hend] at hloop
        rw [bind_some hend]
        have hlast : ∀ value : Program Transfer Int, value t'' = (t'', (value t'').2) →
            (value t'').2 ≠ none → Patient t.waits (value t'').1 ∧ (r.Responds →
              r.loop.iterations ≠ [] → (value t'').2 = none → (value t'').1.ctrl.countToRead ≠ 0) :=
          fun value hstate hreturn =>
            ⟨by rw [hstate]; exact hloop.1, fun _ _ hnone => absurd hnone hreturn⟩
        rw [bind_some (show Transfer.get (·.countToRead) t'' = _ from rfl)]
        split
        · exact hlast _ rfl nofun
        · exact hlast _ rfl nofun
  · rw [if_pos hcode]
    exact ⟨(hresume.throw (fun ctrl => ctrl.io_handleEasyError _)
      fun ctrl => ctrl.timedOut_handleEasyError _).patient, fun _ _ hnone => nomatch hnone⟩

theorem read_spec (hbusy : t.ctrl.busy = false) (hcount : r.count ≠ 0) (hfits : r.NoExactFit t) :
    Patient t.waits (Transfer.read r t).1 ∧
      (r.Responds → r.loop.iterations ≠ [] → (Transfer.read r t).2 = none →
        (Transfer.read r t).1.ctrl.countToRead ≠ 0) := by
  have hread : Transfer.read r t = (Transfer.receive r >>= fun retVal => do
      Transfer.update (·.setNeedInput false)
      Transfer.release
      pure (.int retVal : Returned)) (t.reading r) := by
    rw [Transfer.read, Transfer.acquire_free hbusy]
    rfl
  have hreceive := receive_spec hcount hfits
  rw [hread]
  rcases hrun : Transfer.receive r (t.reading r) with ⟨t', _ | retVal⟩
  · rw [hrun] at hreceive
    rw [bind_none hrun]
    exact ⟨hreceive.1, fun hresponds hne _ => hreceive.2 hresponds hne rfl⟩
  · rw [hrun] at hreceive
    rw [bind_some hrun]
    refine ⟨⟨hreceive.1.timeout, hreceive.1.waits⟩, fun _ _ hnone => ?_⟩
    cases hnone

end Read

/-- **A filled read returns**: a call of `CurlInputStream.read` does not wait with the
array full, it is over as soon as libcurl has answered, and it does not throw a
`SocketTimeoutException` when the array is full. -/
structure BodyCall.FilledReturns (s : StreamCall) (r : BodyCall) (t : Transfer) : Prop where
  waits : ∃ new, (Transfer.inputRead s r t).1.waits = t.waits ++ new ∧
    ∀ w ∈ new, w.ctrl.countToRead ≠ 0
  returns : r.Responds → r.loop.iterations ≠ [] →
    (Transfer.inputRead s r t).1.ctrl.countToRead = 0 → (Transfer.inputRead s r t).2 ≠ none
  timeout : ∀ e, (Transfer.inputRead s r t).2 = some (.error (.native e)) →
    e.isSocketTimeout = true → (Transfer.inputRead s r t).1.ctrl.countToRead ≠ 0

/-- A call that does not get as far as the loop. -/
theorem BodyCall.FilledReturns.of_eq {s : StreamCall} {r : BodyCall} {t t' : Transfer}
    {result : Except Thrown Int} (h : Transfer.inputRead s r t = (t', some result))
    (hwaits : t'.waits = t.waits)
    (hresult : ∀ e, result = .error (.native e) → e.isSocketTimeout = false) :
    r.FilledReturns s t := by
  refine ⟨⟨[], ?_, fun _ hw => nomatch hw⟩, fun _ _ _ hnone => ?_, fun e he htimeout => ?_⟩
  · rw [h]
    exact hwaits.trans (List.append_nil _).symm
  · rw [h] at hnone
    cases hnone
  · rw [h] at he
    rw [hresult e (Option.some.inj he)] at htimeout
    cases htimeout

/-- **A read that is filled returns, if no iteration goes on behind a chunk that ends
where the array ends.**  The handle is any, and so is the behaviour of libcurl. -/
theorem filled_read_returns {s : StreamCall} {r : BodyCall} {t : Transfer} (hlen : 1 ≤ r.count)
    (hfits : s.closed = false → s.interruptedBefore = false → t.ctrl.busy = false →
      r.NoExactFit t) : r.FilledReturns s t := by
  by_cases hrange : r.InRange
  swap
  · exact .of_eq (Transfer.inputRead_outOfRange hrange s t) rfl fun _ he => nomatch he
  have hinput := Transfer.inputRead_eq hrange s t
  cases hclosed : s.closed with
  | true =>
    rw [if_pos hclosed] at hinput
    exact .of_eq hinput rfl fun _ he => nomatch he
  | false =>
  rw [if_neg (by rw [hclosed]; decide)] at hinput
  cases hbefore : s.interruptedBefore with
  | true =>
    rw [if_pos hbefore] at hinput
    exact .of_eq hinput rfl fun _ he => nomatch he
  | false =>
  rw [if_neg (by rw [hbefore]; decide)] at hinput
  cases hbusy : t.ctrl.busy with
  | true =>
    rw [Transfer.read, Transfer.acquire_taken hbusy] at hinput
    refine .of_eq hinput rfl fun e he => ?_
    cases he
    rfl
  | false =>
    obtain ⟨hpatient, hcaught⟩ := read_spec hbusy (by omega) (hfits hclosed hbefore hbusy)
    rcases hread : Transfer.read r t with ⟨t', _ | returned⟩
    · rw [hread] at hinput hpatient hcaught
      refine ⟨by rw [hinput]; exact hpatient.waits, ?_, fun e he => ?_⟩
      · intro hresponds hne hfull
        rw [hinput] at hfull
        exact absurd hfull (hcaught hresponds hne rfl)
      · rw [hinput] at he
        cases he
    · rw [hread] at hinput hpatient
      refine ⟨by rw [hinput]; exact hpatient.waits, fun _ _ _ hnone => ?_, fun e he htimeout => ?_⟩
      · rw [hinput] at hnone
        cases hnone
      · rw [hinput] at he ⊢
        have houtcome : s.outcome returned t' = .error (.native e) := Option.some.inj he
        have hpending : t'.ctrl.env.pending = some e := by
          unfold StreamCall.outcome at houtcome
          split at houtcome
          · rename_i hpending
            cases houtcome
            exact hpending
          · split at houtcome <;> cases houtcome
        refine hpatient.timeout ?_
        rw [JNIEnv.timedOut, hpending]
        exact htimeout

/-- A call of an open stream that is not interrupted. -/
def quietCall : StreamCall := ⟨false, false, false⟩

/-- A download whose timeouts are a second. -/
def configureSecond (response : List UInt8) : Configure :=
  { configureDownload response with readTimeout := 1000, connTimeout := 1000 }

def downloading (response : List UInt8) : Transfer :=
  (runCalls [.nativeConfigure (configureSecond response)] (.fresh latinPlatform fun _ => 0)).1

/-- A `read` of two bytes, offered a chunk while receiving is resumed and nothing for
two seconds behind it. -/
def readSlowly (n : Nat) : BodyCall where
  buf := some [0, 0, 0]
  off := 1
  count := 2
  pause := ⟨[.body n], some .ok⟩
  interrupted := false
  loop := ⟨⟨0, 0⟩, [⟨false, ⟨[], some (.ok, 1)⟩, [], false, 500, some (.ok, 0), ⟨2, 0⟩⟩]⟩
  interruptedAgain := false

theorem filled_read_returns_readSlowly :
    (readSlowly 3).FilledReturns quietCall (downloading [10, 20, 30]) := by
  refine filled_read_returns (by decide) fun _ _ _ _ => Transfer.noExactFit_singleton ?_
  show Transfer.resumedFit (readSlowly 3) ((downloading [10, 20, 30]).reading (readSlowly 3)) = false
  decide

/-- A chunk of two bytes fills the array.  The read waits for more, and what it throws
after two seconds is all that Java gets. -/
theorem not_filled_read_returns :
    ¬ (readSlowly 2).FilledReturns quietCall (downloading [10, 20, 30]) ∧
      (Transfer.inputRead quietCall (readSlowly 2) (downloading [10, 20, 30])).1.copied = [10, 20] :=
  ⟨fun h => h.timeout _ rfl rfl rfl, rfl⟩

end Chttpc
