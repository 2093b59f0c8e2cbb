import Chttpc.HeaderAnswers
import Chttpc.ResponseStore
import Chttpc.SideBySide
import Chttpc.UrlUpdate

/-!
# Two handles that are configured for the same responses

Two handles that have been reset are configured with the same settings, and libcurl calls
back with the same lines in both.  What the loop does depends on the flags, on the timeouts
and on what the headers answer (`Steering`, `CurlData.bails`, `CurlData.fullTimeout`).  While
nobody reads or writes, a callback does the same to the flags of both, so the two handles
leave the loop at the same instant if their headers answer alike.  What they have heard by
then is the same list of lines (`heard_nativeConfigure`).
-/

namespace Chttpc
open Program

/-! ## The lines of a call -/

/-- The header line that a callback hands over. -/
def Callback.lines : Callback → List HeaderLine
  | .header line => [line]
  | .body _ | .upload _ | .errorText _ => []

def Perform.lines (perform : Perform) : List HeaderLine := perform.callbacks.flatMap Callback.lines

def Loop.lines (loop : Loop) : List HeaderLine := loop.iterations.flatMap (·.perform.lines)

/-- The lines that libcurl hands over in the call, if it comes to that. -/
def Configure.lines (c : Configure) : List HeaderLine := c.perform.lines ++ c.loop.lines

/-! ## What steers the loop -/

/-- What decides how the loop goes on, but for the headers. -/
structure Steering where
  rodata : Nat → UInt8
  /-- The flags, without `seenHeaderEnd`. -/
  state : StateBits
  connTimeout : Int
  readTimeout : Int
  countToRead : Int
  countToWrite : Int
  attached : Bool
  writeFunction : WriteFunction

namespace Steering

/-- The handle is attached, and nobody reads or writes. -/
structure Idle (s : Steering) : Prop where
  attached : s.attached = true
  countToRead : s.countToRead = 0
  countToWrite : s.countToWrite = 0

/-- A callback for the body pauses its direction. -/
def after (s : Steering) : Callback → Steering
  | .header _ | .errorText _ => s
  | .body _ =>
      if s.writeFunction = .writeCallback then
        { s with state := { s.state with recvPaused := true } }
      else s
  | .upload _ => { s with state := { s.state with sendPaused := true } }

theorem Idle.after {s : Steering} (h : s.Idle) (callback : Callback) : (s.after callback).Idle := by
  cases callback with
  | header line => exact h
  | errorText text => exact h
  | upload capacity => exact ⟨h.attached, h.countToRead, h.countToWrite⟩
  | body n =>
    unfold Steering.after
    dsimp only
    split
    · exact ⟨h.attached, h.countToRead, h.countToWrite⟩
    · exact h

end Steering

namespace Transfer
variable {t t' : Transfer}

def steering (t : Transfer) : Steering where
  rodata := t.rodata
  state := t.ctrl.io.state
  connTimeout := t.ctrl.io.connTimeout
  readTimeout := t.ctrl.io.readTimeout
  countToRead := t.ctrl.io.countToRead
  countToWrite := t.ctrl.io.countToWrite
  attached := t.curl.attached
  writeFunction := t.curl.writeFunction

theorem steering_of_io {ctrl : CurlData} (h : ctrl.io = t.ctrl.io) :
    ({ t with ctrl } : Transfer).steering = t.steering := by
  unfold steering
  dsimp only
  rw [h]

theorem steering_invoke (h : t.steering.Idle) (callback : Callback) :
    (t.invoke callback).steering = t.steering.after callback := by
  have hattached : t.curl.attached = true := h.attached
  have hread : t.ctrl.countToRead = 0 := h.countToRead
  have hwrite : t.ctrl.countToWrite = 0 := h.countToWrite
  rw [invoke, if_pos hattached]
  cases callback with
  | header line => exact steering_of_io (CurlData.io_headerCallback _ line)
  | errorText text => rfl
  | body n =>
    unfold handle Steering.after
    dsimp only
    have hfunction : t.steering.writeFunction = t.curl.writeFunction := rfl
    rw [hfunction]
    split
    · rename_i hset
      have hmoved : t.ctrl.writeCallback t.platform (t.curl.offer n) =
          ⟨t.ctrl.setRecvPaused true, [], none, .pause⟩ := if_pos hread
      rw [if_pos hset]
      unfold receiveChunk
      dsimp only
      rw [hmoved]
      rfl
    · rename_i hset
      rw [if_neg fun hcallback => WriteFunction.noConfusion (hset.symm.trans hcallback)]
    · rename_i hset
      rw [if_neg fun hcallback => WriteFunction.noConfusion (hset.symm.trans hcallback)]
  | upload capacity =>
    -- whatever the read function is, and whether or not the upload is complete
    have hctrl : (t.sendChunk capacity).ctrl = t.ctrl.setSendPaused true := by
      unfold sendChunk
      cases t.curl.readFunction with
      | eofCallback => rfl
      | readCallback =>
        dsimp only
        unfold CurlData.readCallback
        rw [if_pos hwrite]
        split <;> rfl
    have hcurl : (t.sendChunk capacity).curl.attached = t.curl.attached ∧
        (t.sendChunk capacity).curl.writeFunction = t.curl.writeFunction := by
      unfold sendChunk
      dsimp only
      rw [Libcurl.afterRead_eq]
      exact ⟨rfl, rfl⟩
    show (t.sendChunk capacity).steering = _
    unfold steering
    rw [hctrl, hcurl.1, hcurl.2]
    rfl

theorem store_invoke (h : t.curl.attached = true) (callback : Callback) :
    (t.invoke callback).ctrl.store =
      match callback with
      | .header line => (t.ctrl.store.headerCallback line).1.store
      | .body _ | .upload _ | .errorText _ => t.ctrl.store := by
  rw [invoke, if_pos h]
  cases callback with
  | header line => exact t.ctrl.store_headerCallback line
  | errorText text => rfl
  | upload capacity => exact t.store_sendChunk capacity
  | body n =>
    unfold handle
    cases t.curl.writeFunction with
    | writeCallback => exact t.ctrl.store_writeCallback _ _
    | skipReceiveCallback => rfl
    | abortReceiveCallback => rfl

/-- The handle has heard the lines, one after another, since it was `first`. -/
def Heard (first : CurlData) (heard : List HeaderLine) (t : Transfer) : Prop :=
  t.ctrl.store = ((Observed.start first).run heard).ctrl.store

theorem Heard.invoke {first : CurlData} {heard : List HeaderLine} (h : Heard first heard t)
    (hattached : t.curl.attached = true) (callback : Callback) :
    Heard first (heard ++ callback.lines) (t.invoke callback) := by
  unfold Heard
  rw [store_invoke hattached]
  cases callback with
  | header line =>
    show (t.ctrl.store.headerCallback line).1.store =
      ((Observed.start first).run (heard ++ [line])).ctrl.store
    rw [Observed.run_concat, Observed.step_ctrl, h]
    exact (CurlData.store_headerCallback _ line).symm
  | body n => rw [Callback.lines, List.append_nil]; exact h
  | upload capacity => rw [Callback.lines, List.append_nil]; exact h
  | errorText text => rw [Callback.lines, List.append_nil]; exact h

end Transfer

/-! ## Two handles that hear the same -/

/-- A name is found in the tables of both, or in neither. -/
theorem Twins.isNone_hashmapGet {o o' : Observed} (h : Twins o o') {key : CString}
    (hkey : key.addr = 0) :
    (o.ctrl.headers.hashmapGet key).isNone = (o'.ctrl.headers.hashmapGet key).isNone := by
  have hshows : ∀ {x : Observed}, Rings x → (x.ctrl.headers.hashmapGet key).isNone =
      ((x.ctrl.headers.hashmapGet key).bind x.ctrl.valueText).isNone := by
    intro x hx
    cases hget : x.ctrl.headers.hashmapGet key with
    | none => rfl
    | some block =>
      obtain ⟨e, he, -, rfl⟩ := Hashmap.exists_of_hashmapGet hget
      have hlt := (hx.value_lt (hx.ring e he).last_mem).2
      rw [Option.bind_some, CurlData.valueText, List.getElem?_eq_getElem hlt]
      rfl
  rw [hshows h.stored.1.toRings, hshows h.stored.2.toRings]
  exact congrArg Option.isNone (h.elim (fun h => h.lookup hkey) fun h => h.lookup hkey)

/-- The two handles have heard the same lines, and have the same flags. -/
structure Together (first second : CurlData) (heard : List HeaderLine) (t t' : Transfer) :
    Prop where
  hears : t.Heard first heard
  hears' : t'.Heard second heard
  steering : t.steering = t'.steering
  idle : t.steering.Idle

namespace Together
variable {first second : CurlData} {heard : List HeaderLine} {t t' : Transfer}

theorem invoke (h : Together first second heard t t') (callback : Callback) :
    Together first second (heard ++ callback.lines) (t.invoke callback) (t'.invoke callback) where
  hears := h.hears.invoke h.idle.attached callback
  hears' := h.hears'.invoke (h.steering ▸ h.idle).attached callback
  steering := by
    rw [Transfer.steering_invoke h.idle, Transfer.steering_invoke (h.steering ▸ h.idle), h.steering]
  idle := by
    rw [Transfer.steering_invoke h.idle]
    exact h.idle.after callback

theorem invokeAll : ∀ (callbacks : List Callback) {heard : List HeaderLine} {t t' : Transfer},
    Together first second heard t t' →
      Together first second (heard ++ callbacks.flatMap Callback.lines) (t.invokeAll callbacks)
        (t'.invokeAll callbacks)
  | [], heard, t, t', h => by
      rw [List.flatMap_nil, List.append_nil]
      exact h
  | callback :: callbacks, heard, t, t', h => by
      rw [List.flatMap_cons, ← List.append_assoc]
      exact invokeAll callbacks (h.invoke callback)

theorem reports (h : Together first second heard t t') {ctrl ctrl' : CurlData}
    (hctrl : t.ctrl.OnlyReports ctrl) (hctrl' : t'.ctrl.OnlyReports ctrl') :
    Together first second heard { t with ctrl } { t' with ctrl := ctrl' } where
  hears := hctrl.store.trans h.hears
  hears' := hctrl'.store.trans h.hears'
  steering := by
    rw [Transfer.steering_of_io hctrl.io, Transfer.steering_of_io hctrl'.io, h.steering]
  idle := by
    rw [Transfer.steering_of_io hctrl.io]
    exact h.idle

/-- The handles of two stores that answer alike have the same flags. -/
theorem state (h : Together first second heard t t')
    (htwins : Twins ((Observed.start first).run heard) ((Observed.start second).run heard)) :
    t.ctrl.state = t'.ctrl.state := by
  have hio : t.ctrl.io.state = t'.ctrl.io.state := congrArg (·.state) h.steering
  have hseen : t.ctrl.store.state.seenHeaderEnd = t'.ctrl.store.state.seenHeaderEnd := by
    rw [h.hears, h.hears']
    exact htwins.alike.seenHeaderEnd
  rw [CurlData.seenHeaderEnd_store, CurlData.seenHeaderEnd_store] at hseen
  -- all flags but `seenHeaderEnd` are part of `io`
  unfold CurlData.io at hio
  generalize t.ctrl.state = state, t'.ctrl.state = state' at hio hseen
  cases state
  cases state'
  simp_all

/-- **The two leave the loop at the same instant.** -/
theorem bails (h : Together first second heard t t')
    (htwins : Twins ((Observed.start first).run heard) ((Observed.start second).run heard)) :
    t.ctrl.bails t.rodata = t'.ctrl.bails t'.rodata := by
  have hrodata : t.rodata = t'.rodata := congrArg (·.rodata) h.steering
  have hheaders : t.ctrl.headers = ((Observed.start first).run heard).ctrl.headers :=
    congrArg (·.headers) h.hears
  have hheaders' : t'.ctrl.headers = ((Observed.start second).run heard).ctrl.headers :=
    congrArg (·.headers) h.hears'
  -- of the headers, the loop asks for `Location` only
  have haddr : (⟨0, ascii "Location", t'.rodata⟩ : CString).addr = 0 := rfl
  have hlocation := htwins.isNone_hashmapGet haddr
  unfold CurlData.bails
  rw [h.state htwins, hrodata, hheaders, hheaders', hlocation]

theorem fullTimeout (h : Together first second heard t t')
    (htwins : Twins ((Observed.start first).run heard) ((Observed.start second).run heard)) :
    t.ctrl.fullTimeout = t'.ctrl.fullTimeout := by
  have hcount : t.ctrl.headerPairCount = ((Observed.start first).run heard).ctrl.headerPairCount :=
    congrArg (·.headerPairCount) h.hears
  have hcount' :
      t'.ctrl.headerPairCount = ((Observed.start second).run heard).ctrl.headerPairCount :=
    congrArg (·.headerPairCount) h.hears'
  have hconn : t.ctrl.connTimeout = t'.ctrl.connTimeout := congrArg (·.connTimeout) h.steering
  have hread : t.ctrl.readTimeout = t'.ctrl.readTimeout := congrArg (·.readTimeout) h.steering
  unfold CurlData.fullTimeout
  rw [hcount, hcount', htwins.alike.count, hconn, hread]

end Together

/-! ## The two runs -/

/-- The two handles have heard the same, and `rest` is what may still come of the lines. -/
def HeardAlike (first second : CurlData) (lines rest : List HeaderLine) (t t' : Transfer) : Prop :=
  ∃ heard, heard ++ rest <+: lines ∧ Together first second heard t t'

section Runs
variable {first second : CurlData} {lines rest : List HeaderLine} {t t' : Transfer}

/-- What may still come does not. -/
theorem HeardAlike.stop (h : HeardAlike first second lines rest t t') :
    HeardAlike first second lines [] t t' := by
  obtain ⟨heard, hpre, hboth⟩ := h
  rw [← List.append_nil heard] at hboth
  exact ⟨heard, by simpa using (List.prefix_append heard rest).trans hpre, by simpa using hboth⟩

theorem heardAlike_perform (perform : Perform) :
    Alongside (HeardAlike first second lines (perform.lines ++ rest))
      (Transfer.curlMultiPerform perform) (Transfer.curlMultiPerform perform)
      (HeardAlike first second lines rest) := by
  refine Alongside.call ?_
  rintro t t' ⟨heard, hpre, h⟩
  exact ⟨heard ++ perform.lines, by rwa [List.append_assoc], h.invokeAll _⟩

theorem heardAlike_update {f g : CurlData → CurlData}
    (hf : ∀ ctrl : CurlData, ctrl.OnlyReports (f ctrl))
    (hg : ∀ ctrl : CurlData, ctrl.OnlyReports (g ctrl)) :
    Alongside (HeardAlike first second lines rest) (Transfer.update f) (Transfer.update g)
      (HeardAlike first second lines rest) := by
  refine Alongside.update ?_
  rintro t t' ⟨heard, hpre, h⟩
  exact ⟨heard, hpre, h.reports (hf t.ctrl) (hg t'.ctrl)⟩

/-- Whether the transfer has ended is for libcurl to say. -/
theorem checkResult_snd (messages : List CURLMsg) :
    ∀ ctrl ctrl' : CurlData, (ctrl.checkResult messages).2 = (ctrl'.checkResult messages).2 := by
  induction messages with
  | nil => exact fun _ _ => rfl
  | cons msg remaining ih =>
    intro ctrl ctrl'
    unfold CurlData.checkResult
    split
    · rfl
    · split
      · split
        · rfl
        · exact ih ctrl ctrl'
      · split
        · rfl
        · exact ih ctrl ctrl'
      · rfl

theorem heardAlike_checkResult (messages : List CURLMsg) :
    Alongside (HeardAlike first second lines rest) (Transfer.checkResult messages)
      (Transfer.checkResult messages) (HeardAlike first second lines rest) := by
  rintro t t' ⟨heard, hpre, h⟩ s a s' a' hs hs'
  cases hs
  cases hs'
  exact ⟨checkResult_snd messages _ _, heard, hpre,
    h.reports (Transfer.reports_checkResult messages _) (Transfer.reports_checkResult messages _)⟩

/-- How the iteration ends is the same, and if it ends the loop the rest does not come. -/
def EndsAlike (first second : CurlData) (lines rest : List HeaderLine) (flow flow' : Flow)
    (t t' : Transfer) : Prop :=
  flow = flow' ∧
    match flow with
    | .stop _ => HeardAlike first second lines [] t t'
    | .again _ => HeardAlike first second lines rest t t'

/-- An end of the loop, from wherever it is reached. -/
theorem endsAlike_stop {before : List HeaderLine} (result : Bool) :
    Beside (HeardAlike first second lines before) (pure (.stop result) : Program Transfer Flow)
      (pure (.stop result) : Program Transfer Flow) (EndsAlike first second lines rest) :=
  Beside.pure fun _ _ h => ⟨rfl, h.stop⟩

section Loop
variable (htwins : ∀ heard, heard <+: lines →
  Twins ((Observed.start first).run heard) ((Observed.start second).run heard))
include htwins

theorem heardAlike_read {α : Type} {f : Transfer → α}
    (hf : ∀ heard t t', Together first second heard t t' →
      Twins ((Observed.start first).run heard) ((Observed.start second).run heard) → f t = f t') :
    Alongside (HeardAlike first second lines rest) (Program.read f) (Program.read f)
      (HeardAlike first second lines rest) := by
  refine Alongside.read ?_
  rintro t t' ⟨heard, hpre, h⟩
  exact hf heard t t' h (htwins heard ((List.prefix_append heard rest).trans hpre))

theorem endsAlike_account (it : Iteration) (timer : Timer) :
    Beside (HeardAlike first second lines rest) (Transfer.account it timer)
      (Transfer.account it timer) (EndsAlike first second lines rest) := by
  unfold Transfer.account
  refine Beside.ite (fun _ => ?_) fun _ => ?_
  · have htimeout : Alongside (HeardAlike first second lines rest)
        (Program.read (·.ctrl.fullTimeout)) (Program.read (·.ctrl.fullTimeout))
        (HeardAlike first second lines rest) :=
      heardAlike_read htwins fun _ _ _ h hsame => h.fullTimeout hsame
    exact Alongside.bind htimeout fun _ => Beside.pure fun _ _ h => ⟨rfl, h⟩
  · refine Beside.ite (fun _ => ?_) fun _ => Beside.pure fun _ _ h => ⟨rfl, h⟩
    exact Alongside.bind (heardAlike_update (fun ctrl => ctrl.reports_throwTimeout _)
      fun ctrl => ctrl.reports_throwTimeout _) fun _ => endsAlike_stop true

theorem endsAlike_await (it : Iteration) (timer : Timer) :
    Beside (HeardAlike first second lines rest) (Transfer.await it timer)
      (Transfer.await it timer) (EndsAlike first second lines rest) := by
  unfold Transfer.await
  refine Beside.ite (fun _ => ?_) fun _ => endsAlike_account htwins it timer
  have hnoted : Alongside (HeardAlike first second lines rest) (Program.update Transfer.noteWait)
      (Program.update Transfer.noteWait) (HeardAlike first second lines rest) := by
    refine Alongside.update ?_
    rintro t t' ⟨heard, hpre, h⟩
    exact ⟨heard, hpre, h.hears, h.hears', h.steering, h.idle⟩
  refine Alongside.bind hnoted fun _ => ?_
  refine Alongside.bind (Alongside.call fun _ _ h => h) fun answer => ?_
  refine Beside.ite (fun _ => ?_) fun _ => endsAlike_account htwins it _
  exact Alongside.bind (heardAlike_update (fun ctrl => ctrl.reports_handleMultiError _)
    fun ctrl => ctrl.reports_handleMultiError _) fun _ => endsAlike_stop true

/-- **One iteration** ends in the same way in both. -/
theorem endsAlike_iterate (it : Iteration) (timer : Timer) :
    Beside (HeardAlike first second lines (it.perform.lines ++ rest)) (Transfer.iterate it timer)
      (Transfer.iterate it timer) (EndsAlike first second lines rest) := by
  unfold Transfer.iterate
  refine Beside.ite (fun _ => endsAlike_stop false) fun _ => ?_
  refine Alongside.bind (heardAlike_perform it.perform) fun answer => ?_
  refine Beside.ite (fun _ => ?_) fun _ => ?_
  · exact Alongside.bind (heardAlike_update (fun ctrl => ctrl.reports_handleMultiError _)
      fun ctrl => ctrl.reports_handleMultiError _) fun _ => endsAlike_stop true
  refine Alongside.bind (heardAlike_checkResult it.messages) fun completed => ?_
  refine Beside.ite (fun _ => endsAlike_stop true) fun _ => ?_
  refine Alongside.bind (heardAlike_read htwins fun _ _ _ h hsame => h.bails hsame) fun bails => ?_
  refine Beside.ite (fun _ => endsAlike_stop false) fun _ => ?_
  refine Beside.ite (fun _ => endsAlike_stop true) fun _ => ?_
  refine Beside.ite (fun _ => endsAlike_stop false) fun _ => ?_
  exact endsAlike_await htwins it timer

theorem heardAlike_iterateAll : ∀ (iterations : List Iteration) (timer : Timer),
    Alongside (HeardAlike first second lines (iterations.flatMap (·.perform.lines)))
      (Transfer.iterateAll iterations timer) (Transfer.iterateAll iterations timer)
      (HeardAlike first second lines [])
  | [], _ => Beside.inside
  | it :: iterations, timer => by
      rw [List.flatMap_cons]
      refine Beside.bind (endsAlike_iterate htwins it timer) fun flow flow' => ?_
      rintro t t' ⟨rfl, h⟩
      cases flow with
      | stop result => exact Alongside.pure result t t' h
      | again timer => exact heardAlike_iterateAll iterations timer t t' h

/-- **The loop** leaves the two handles with the same lines heard. -/
theorem heardAlike_curlPerform (loop : Loop) :
    Alongside (HeardAlike first second lines loop.lines) (Transfer.curlPerform loop)
      (Transfer.curlPerform loop) (HeardAlike first second lines []) :=
  Alongside.bind (heardAlike_read htwins fun _ _ _ h hsame => h.fullTimeout hsame) fun _ =>
    heardAlike_iterateAll htwins _ _

/-- `nativeConfigure`, from the first look at the interruption flag on. -/
theorem heardAlike_connect (c : Configure) (url url' : MutableUrl) :
    Beside (HeardAlike first second lines c.lines) (Transfer.connect (c.withUrl url))
      (Transfer.connect (c.withUrl url')) fun _ _ => HeardAlike first second lines [] := by
  have hstop {before : List HeaderLine} (array array' : List UInt16) :
      Beside (HeardAlike first second lines before) (pure array : Program Transfer (List UInt16))
        (pure array' : Program Transfer (List UInt16))
        fun _ _ => HeardAlike first second lines [] :=
    Beside.pure fun _ _ h => h.stop
  unfold Transfer.connect
  refine Beside.ite (fun _ => hstop _ _) fun _ => ?_
  refine Alongside.bind (heardAlike_perform c.perform) fun answer => ?_
  refine Beside.ite (fun _ => ?_) fun _ => ?_
  · exact Alongside.bind (heardAlike_update (fun ctrl => ctrl.reports_handleMultiError _)
      fun ctrl => ctrl.reports_handleMultiError _) fun _ => hstop _ _
  have hended : Alongside (HeardAlike first second lines c.loop.lines)
      (Transfer.hasEnded answer.2 c.messages) (Transfer.hasEnded answer.2 c.messages)
      (HeardAlike first second lines c.loop.lines) :=
    Beside.ite (fun _ => heardAlike_checkResult c.messages) fun _ => Alongside.pure false
  refine Alongside.bind hended fun completed => ?_
  refine Beside.ite (fun _ => hstop _ _) fun _ => ?_
  refine Alongside.bind (heardAlike_curlPerform htwins c.loop) fun ended => ?_
  refine Beside.ite (fun _ => hstop _ _) fun _ => ?_
  refine Beside.ite (fun _ => ?_) fun _ => hstop _ _
  -- the effective URL is read, and no callback comes any more
  refine Beside.bind (Q := fun _ _ => HeardAlike first second lines []) (Beside.read fun _ _ => id)
    fun platform platform' => ?_
  cases (c.withUrl url).effective platform with
  | none => exact Beside.inside
  | some newUrl =>
    cases (c.withUrl url').effective platform' with
    | none => exact Beside.inside_right
    | some newUrl' => exact hstop _ _

end Loop
end Runs

namespace Transfer
variable {t t' s s' : Transfer} {c : Configure} {url url' : MutableUrl}

/-- What steers a call of `nativeConfigure` on a handle that has been reset. -/
theorem steering_attach (c : Configure) (hzero : t.ctrl.state = .zero) :
    (c.attach (t.entered.modify (·.beginConfigure))).steering =
      { rodata := t.rodata
        state := { StateBits.zero with
          attached := true, handleRedirect := c.followRedirects, doOutput := c.fixed
          doInput := c.doInput }
        connTimeout := Configure.timeoutOrMax c.connTimeout
        readTimeout := Configure.timeoutOrMax c.readTimeout
        countToRead := 0
        countToWrite := 0
        attached := true
        writeFunction := (c.setCurl [] t.curl).writeFunction } := by
  have hdetached : ¬ t.ctrl.state.attached = true := by
    rw [hzero]
    decide
  unfold Configure.attach
  dsimp only
  rw [if_neg (by exact hdetached)]
  unfold steering CurlData.io Configure.setCtrl CurlData.beginConfigure
  dsimp only [modify, entered, Libcurl.addHandle]
  rw [hzero]
  rfl

/-- **Two calls of `nativeConfigure` that meet the same** have heard the same lines when they
come back. -/
theorem heard_nativeConfigure {r r' : Returned}
    (htwins : ∀ heard, heard <+: c.lines →
      Twins ((Observed.start t.ctrl).run heard) ((Observed.start t'.ctrl).run heard))
    (hrodata : t.rodata = t'.rodata) (hzero : t.ctrl.state = .zero) (hzero' : t'.ctrl.state = .zero)
    (hcall : nativeConfigure (c.withUrl url) t = (s, some r)) (hquiet : s.ctrl.env.pending = none)
    (hcall' : nativeConfigure (c.withUrl url') t' = (s', some r'))
    (hquiet' : s'.ctrl.env.pending = none) :
    ∃ heard, heard <+: c.lines ∧ s.Heard t.ctrl heard ∧ s'.Heard t'.ctrl heard := by
  -- neither has been refused, so both get to the first callbacks with nothing heard
  obtain ⟨hfree, hbuffer⟩ := passed_of_nativeConfigure hcall hquiet
  obtain ⟨hfree', hbuffer'⟩ := passed_of_nativeConfigure hcall' hquiet'
  rw [nativeConfigure, acquire_free hfree] at hcall
  rw [nativeConfigure, acquire_free hfree'] at hcall'
  obtain ⟨u, array, hbody, hrest⟩ := bind_eq_some hcall
  obtain ⟨u', array', hbody', hrest'⟩ := bind_eq_some hcall'
  cases hrest
  cases hrest'
  rw [configureBody_eq, if_neg (by rw [hbuffer]; decide)] at hbody
  rw [configureBody_eq, if_neg (by rw [hbuffer']; decide)] at hbody'
  have hstart : Together t.ctrl t'.ctrl []
      ((c.withUrl url).attach (t.entered.modify (·.beginConfigure)))
      ((c.withUrl url').attach (t'.entered.modify (·.beginConfigure))) := by
    refine ⟨store_attach _ _, store_attach _ _, ?_, ?_⟩
    · rw [steering_attach _ hzero, steering_attach _ hzero', hrodata]
      rfl
    · rw [steering_attach _ hzero]
      exact ⟨rfl, rfl, rfl⟩
  obtain ⟨heard, hpre, hboth⟩ := heardAlike_connect htwins c url url' _ _
    ⟨[], List.prefix_refl _, hstart⟩ _ _ _ _ hbody hbody'
  exact ⟨heard, by rwa [List.append_nil] at hpre, hboth.hears, hboth.hears'⟩

end Transfer
end Chttpc
