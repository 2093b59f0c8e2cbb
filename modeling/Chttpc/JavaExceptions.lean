import Chttpc.Attempts
import Chttpc.CurlConnection

/-!
# The exceptions of the native methods

Native code raises an exception by a number and a text, with `Curl.throwException`, or it
names the class itself.  `throwException` returns behind the last case of its switch, so a
number without a case would raise nothing.  An `IOException` is a checked exception, and the
methods that are not declared to throw one must not.  A text of libcurl comes from
`errorBuffer`, which is the same for all calls on a handle.

`raised_proper` says that none of this goes wrong: whatever libcurl does, an exception that a
method leaves pending is really thrown, is checked only if the method declares it, and if its
text is one of libcurl it has been written during this call.
-/

namespace Chttpc
open Program

/-! ## `Curl.throwException` -/

inductive JavaClass
  | malformedURLException | bindException | unknownServiceException | connectException
  | sslException | socketException | unknownHostException | protocolException
  | illegalStateException | outOfMemoryError | ioException | socketTimeoutException
  | illegalThreadStateException | httpRetryException
  | arrayIndexOutOfBoundsException | negativeArraySizeException
  deriving DecidableEq, Repr

/-- The classes below `java.io.IOException`, and the class itself. -/
def JavaClass.isIOException : JavaClass → Bool
  | .illegalStateException | .outOfMemoryError | .illegalThreadStateException
  | .arrayIndexOutOfBoundsException | .negativeArraySizeException => false
  | _ => true

/-- The message of an exception: the one that native code has passed, a text of the Java code,
one with the name of the thread in it, or one that the virtual machine chooses. -/
inductive JavaMessage
  | passed (message : Option ErrorText)
  | text (text : String)
  | onThread (before after : String)
  | ofRuntime
  deriving DecidableEq, Repr

structure JavaException where
  javaClass : JavaClass
  message : JavaMessage
  /-- The response code of an `HttpRetryException`. -/
  responseCode : Option Int
  deriving DecidableEq, Repr

/-- The numbers of `native-lib.c`. -/
def ErrorType.number : ErrorType → Int
  | .useSynchronization => 0
  | .dnsFailure => 1
  | .notEvenHttp => 2
  | .socketConnectRefused => 3
  | .socketConnectTimeout => 4
  | .socketReadTimeout => 5
  | .retryImpossible => 6
  | .badUrl => 7
  | .interfaceBindingFailed => 8
  | .sslFail => 9
  | .socketMystery => 10
  | .oom => 11
  | .protocol => 12
  | .illegalState => 13
  | .interrupted => 14
  | .closed => 15

/-- The numbers of `Curl.java`. -/
def Curl.errorType : Int → Option ErrorType
  | 0 => some .useSynchronization
  | 1 => some .dnsFailure
  | 2 => some .notEvenHttp
  | 3 => some .socketConnectRefused
  | 4 => some .socketConnectTimeout
  | 5 => some .socketReadTimeout
  | 6 => some .retryImpossible
  | 7 => some .badUrl
  | 8 => some .interfaceBindingFailed
  | 9 => some .sslFail
  | 10 => some .socketMystery
  | 11 => some .oom
  | 12 => some .protocol
  | 13 => some .illegalState
  | 14 => some .interrupted
  | 15 => some .closed
  | _ => none

/-- Both sides mean the same by a number. -/
theorem Curl.errorType_number (errType : ErrorType) :
    Curl.errorType errType.number = some errType := by
  cases errType <;> rfl

/-- `Curl.throwException`; `none` if it returns. -/
def Curl.throwException (message : Option ErrorText) (type arg : Int) : Option JavaException :=
  match Curl.errorType type with
  | some .badUrl => some ⟨.malformedURLException, .passed message, none⟩
  | some .interfaceBindingFailed => some ⟨.bindException, .passed message, none⟩
  | some .notEvenHttp => some ⟨.unknownServiceException, .passed message, none⟩
  | some .socketConnectRefused => some ⟨.connectException, .passed message, none⟩
  | some .sslFail => some ⟨.sslException, .passed message, none⟩
  | some .socketMystery => some ⟨.socketException, .passed message, none⟩
  | some .dnsFailure => some ⟨.unknownHostException, .passed message, none⟩
  | some .protocol => some ⟨.protocolException, .passed message, none⟩
  | some .illegalState => some ⟨.illegalStateException, .passed message, none⟩
  | some .oom => some ⟨.outOfMemoryError, .ofRuntime, none⟩
  | some .closed => some ⟨.ioException, .text "Already closed", none⟩
  | some .socketConnectTimeout =>
      some ⟨.socketTimeoutException, .text "Socket connect timeout reached", none⟩
  | some .socketReadTimeout =>
      some ⟨.socketTimeoutException, .text "Socket read timeout reached", none⟩
  | some .useSynchronization =>
      some ⟨.illegalThreadStateException,
        .onThread "You have called methods of this class on thread "
          (" while it is still being used in another thread. This is not supported. Do not " ++
            "share instances of this class between threads without appropriate synchronization"),
        none⟩
  | some .retryImpossible =>
      some ⟨.httpRetryException,
        .text ("Sending data has failed due to server authentication demands ot keep-alive " ++
          "failure. The request can not be retried automatically, because of streaming transfer " ++
          "in progress. Retry manually."),
        some arg⟩
  -- the switch has no case for an interruption
  | some .interrupted | none => none

/-- What Java makes of an exception that native code raises. -/
def Throwable.java : Throwable → Option JavaException
  | .byCallback errType message arg => Curl.throwException message errType.number arg
  | .ioException message => some ⟨.ioException, .passed (some message), none⟩
  | .arrayIndexOutOfBounds => some ⟨.arrayIndexOutOfBoundsException, .ofRuntime, none⟩
  | .negativeArraySize => some ⟨.negativeArraySizeException, .ofRuntime, none⟩
  | .outOfMemoryError => some ⟨.outOfMemoryError, .ofRuntime, none⟩

/-- The classes agree with what the connection takes for an `IOException`. -/
theorem Throwable.isIOException_java {e : Throwable} {thrown : JavaException}
    (h : e.java = some thrown) : thrown.javaClass.isIOException = e.isIOException := by
  cases e with
  | byCallback errType message arg =>
    cases errType with
    | interrupted => cases h
    | _ => cases h; rfl
  | _ => cases h; rfl

/-- So they do with what it takes for a timeout. -/
theorem Throwable.isSocketTimeout_java {e : Throwable} {thrown : JavaException}
    (h : e.java = some thrown) :
    e.isSocketTimeout = true ↔ thrown.javaClass = .socketTimeoutException := by
  cases e with
  | byCallback errType message arg =>
    cases errType with
    | interrupted => cases h
    | _ => cases h; simp [isSocketTimeout]
  | _ => cases h; simp [isSocketTimeout]

/-! ## What a method may raise -/

/-- The pending exception, if there is one, is of the kind. -/
def JNIEnv.Raises (P : Throwable → Prop) (env : JNIEnv) : Prop := ∀ e, env.pending = some e → P e

theorem JNIEnv.raises_none (P : Throwable → Prop) : JNIEnv.Raises P ⟨none⟩ := nofun

theorem JNIEnv.Raises.throw {P : Throwable → Prop} {env : JNIEnv} (h : env.Raises P)
    {e : Throwable} (he : P e) : (env.throw e).Raises P := by
  rcases env with ⟨_ | pending⟩
  · rintro _ ⟨⟩
    exact he
  · exact h

/-- The native methods that are declared with `throws IOException`. -/
def Call.throwsIOException : Call → Bool
  | .nativeConfigure _ | .read _ | .write _ | .closeOutput _ => true
  | _ => false

/-- The text without one newline at its end. -/
def withoutNewline (text : List UInt8) : List UInt8 :=
  if text.getLast? = some 10 then text.dropLast else text

/-- The exception is thrown, with a message if its class has none of its own, and a text of
libcurl in it has been written by a callback that has been made. -/
def Throwable.Proper (made : Callback → Prop) (e : Throwable) : Prop :=
  ∃ thrown, e.java = some thrown ∧ thrown.message ≠ .passed none ∧
    ∀ text, thrown.message = .passed (some (.errorBuffer text)) →
      ∃ raw, made (.errorText raw) ∧ raw ≠ [] ∧ text = withoutNewline raw

section Proper
variable {made : Callback → Prop}

/-- An exception whose message is its own. -/
theorem Throwable.Proper.of_message {e : Throwable} {thrown : JavaException}
    (h : e.java = some thrown) (hmessage : ∀ m, thrown.message ≠ .passed m) :
    e.Proper made :=
  ⟨thrown, h, hmessage none, fun _ htext => absurd htext (hmessage _)⟩

theorem proper_oom : (Throwable.byCallback .oom none 0).Proper made :=
  .of_message rfl nofun

theorem proper_threading : threadingException.Proper made := .of_message rfl nofun

theorem proper_arrayIndexOutOfBounds : Throwable.arrayIndexOutOfBounds.Proper made :=
  .of_message rfl nofun

theorem proper_closed (message : Option ErrorText) :
    (Throwable.byCallback .closed message 0).Proper made := .of_message rfl nofun

theorem proper_timeout (transferred : Nat) :
    (Throwable.byCallback (if 0 < transferred then .socketReadTimeout else .socketConnectTimeout)
      none 0).Proper made := by
  split
  · exact .of_message rfl nofun
  · exact .of_message rfl nofun

end Proper

/-! ## The calls for headers -/

/-- The exceptions of the calls for headers: a lock that is taken, no memory, and JNI's own. -/
def Throwable.OfHeaders (e : Throwable) : Prop :=
  e ∈ [threadingException, .byCallback .oom none 0, .outOfMemoryError, .negativeArraySize,
    .arrayIndexOutOfBounds]

/-- They are thrown, and none of them is checked. -/
theorem Throwable.OfHeaders.java {e : Throwable} (h : e.OfHeaders) :
    ∃ thrown, e.java = some thrown ∧ thrown.javaClass.isIOException = false ∧
      ∀ m, thrown.message ≠ .passed m := by
  simp only [OfHeaders, List.mem_cons, List.not_mem_nil, or_false] at h
  rcases h with rfl | rfl | rfl | rfl | rfl
  all_goals exact ⟨_, rfl, rfl, nofun⟩

theorem ofHeaders_oom : (Throwable.byCallback .oom none 0).OfHeaders := by
  simp [Throwable.OfHeaders]

theorem ofHeaders_outOfMemoryError : Throwable.outOfMemoryError.OfHeaders := by
  simp [Throwable.OfHeaders]

theorem ofHeaders_negativeArraySize : Throwable.negativeArraySize.OfHeaders := by
  simp [Throwable.OfHeaders]

theorem ofHeaders_arrayIndexOutOfBounds : Throwable.arrayIndexOutOfBounds.OfHeaders := by
  simp [Throwable.OfHeaders]

/-- However a scan ends, it has raised nothing else. -/
def ScanRaises : Except Stop HeaderWriter → Prop
  | .ok w => w.env.Raises Throwable.OfHeaders
  | .error (.outOfMemory w) => w.env.Raises Throwable.OfHeaders
  | .error .neverReturns => True

section Scan
variable {w : HeaderWriter} (ctrl : CurlData) (platform : Platform) (alloc : ArrayAlloc)

theorem scanRaises_put (hw : w.env.Raises Throwable.OfHeaders) (text : List UInt8) :
    ScanRaises (w.put platform alloc text) := by
  unfold HeaderWriter.put
  split
  · exact hw.throw ofHeaders_outOfMemoryError
  · show (HeaderWriter.setObjectArrayElement _ _).env.Raises Throwable.OfHeaders
    unfold HeaderWriter.setObjectArrayElement
    dsimp only
    split
    · exact hw
    · exact hw.throw ofHeaders_arrayIndexOutOfBounds

theorem ScanRaises.andThen {r : Except Stop HeaderWriter}
    {f : HeaderWriter → Except Stop HeaderWriter} (h : ScanRaises r)
    (hf : ∀ w, w.env.Raises Throwable.OfHeaders → ScanRaises (f w)) :
    ScanRaises (match r with
      | .error stop => .error stop
      | .ok w => f w) := by
  cases r with
  | ok w => exact hf w h
  | error stop => exact h

theorem scanRaises_writeValues (blocks : List Nat) (hw : w.env.Raises Throwable.OfHeaders) :
    ScanRaises (ctrl.writeValues platform alloc blocks w) := by
  induction blocks generalizing w with
  | nil => exact hw
  | cons block blocks ih => exact (scanRaises_put platform alloc hw _).andThen fun w hw => ih hw

theorem scanRaises_writeEntry (entry : Entry CString Nat) (hw : w.env.Raises Throwable.OfHeaders) :
    ScanRaises (ctrl.writeEntry platform alloc entry w) := by
  refine (scanRaises_put platform alloc hw _).andThen fun w hw => ?_
  cases ctrl.ringOf entry with
  | none => trivial
  | some blocks =>
    exact (scanRaises_writeValues ctrl platform alloc blocks hw).andThen fun w hw => hw

theorem scanRaises_writeEntries (entries : List (Entry CString Nat))
    (hw : w.env.Raises Throwable.OfHeaders) :
    ScanRaises (ctrl.writeEntries platform alloc entries w) := by
  induction entries generalizing w with
  | nil => exact hw
  | cons entry entries ih =>
    exact (scanRaises_writeEntry ctrl platform alloc entry hw).andThen fun w hw => ih hw

theorem scanRaises_writeRequestHeaders (outHeaders : List (List UInt8))
    (hw : w.env.Raises Throwable.OfHeaders) :
    ScanRaises (CurlData.writeRequestHeaders platform alloc outHeaders w) := by
  induction outHeaders generalizing w with
  | nil => exact hw
  | cons data outHeaders ih =>
    unfold CurlData.writeRequestHeaders
    cases CurlData.requestHeader data with
    | none => exact ih hw
    | some pair =>
      exact (scanRaises_put platform alloc hw _).andThen fun w hw =>
        (scanRaises_put platform alloc hw _).andThen fun w hw => ih hw

variable {ctrl platform alloc}

theorem raisesOfHeaders_getResponseHeaders (hctrl : ctrl.env.Raises Throwable.OfHeaders)
    {result : CurlData.ArrayResult} (h : ctrl.getResponseHeaders platform alloc = some result) :
    result.env.Raises Throwable.OfHeaders := by
  unfold CurlData.getResponseHeaders at h
  dsimp only at h
  generalize List.replicate _ (none : Option JString) = strArray at h
  have hscan := scanRaises_writeEntries ctrl platform alloc ctrl.headers.entries
    (w := ⟨strArray, 0, [], ctrl.env⟩) hctrl
  split at h
  · cases h; exact hctrl
  split at h
  · cases h; exact hctrl.throw ofHeaders_oom
  split at h
  · cases h; exact hctrl.throw ofHeaders_negativeArraySize
  split at h
  · cases h; exact hctrl.throw ofHeaders_outOfMemoryError
  split at h
  · cases h; exact hctrl.throw ofHeaders_outOfMemoryError
  split at h
  · rename_i hr
    rw [hr] at hscan
    cases h
    exact hscan
  · rename_i hr
    rw [hr] at hscan
    cases h
    exact hscan
  · cases h

theorem raisesOfHeaders_getRequestHeaders (hctrl : ctrl.env.Raises Throwable.OfHeaders) :
    (ctrl.getRequestHeaders platform alloc).env.Raises Throwable.OfHeaders := by
  unfold CurlData.getRequestHeaders
  dsimp only
  generalize List.replicate _ (none : Option JString) = strArray
  have hscan := scanRaises_writeRequestHeaders platform alloc
    (ctrl.outHeaders.take ctrl.outHeaderCount) (w := ⟨strArray, 0, [], ctrl.env⟩) hctrl
  split
  · exact hctrl
  split
  · exact hctrl.throw ofHeaders_oom
  split
  · exact hctrl.throw ofHeaders_outOfMemoryError
  split
  · exact hctrl.throw ofHeaders_outOfMemoryError
  split
  · rename_i hr
    rw [hr] at hscan
    exact hscan
  · rename_i hr
    rw [hr] at hscan
    exact hscan
  · exact hctrl

theorem raisesOfHeaders_setHeader (hctrl : ctrl.env.Raises Throwable.OfHeaders)
    {alloc : HeaderAlloc} {key : JString} {value : Option JString} {ctrl' : CurlData}
    (h : ctrl.setHeader alloc key value = some ctrl') : ctrl'.env.Raises Throwable.OfHeaders := by
  unfold CurlData.setHeader at h
  split at h
  · cases h; exact hctrl.throw ofHeaders_oom
  dsimp only at h
  split at h
  · cases h; exact hctrl
  split at h
  · cases h; exact hctrl
  split at h
  · cases h; exact hctrl
  · cases h

theorem raisesOfHeaders_addHeader (hctrl : ctrl.env.Raises Throwable.OfHeaders)
    (alloc : HeaderAlloc) (key value : JString) :
    (ctrl.addHeader alloc key value).env.Raises Throwable.OfHeaders := by
  unfold CurlData.addHeader
  split
  · exact hctrl.throw ofHeaders_oom
  · exact hctrl

theorem raisesOfHeaders_outHeader (hctrl : ctrl.env.Raises Throwable.OfHeaders)
    {alloc : HeaderAlloc} {stringOk : Bool} {key : JString} {ctrl' : CurlData}
    {str : Option JString}
    (h : ctrl.outHeader platform alloc stringOk key = some (ctrl', str)) :
    ctrl'.env.Raises Throwable.OfHeaders := by
  unfold CurlData.outHeader at h
  split at h
  · cases h; exact hctrl
  split at h
  · cases h
  split at h
  · cases h
  · cases h; exact hctrl
  · split at h
    · cases h; exact hctrl
    · cases h; exact hctrl.throw ofHeaders_outOfMemoryError

end Scan

/-! ## The errors of libcurl -/

/-- A call is under way: the text of the last error is one that has been written in it, and
what has been raised is proper. -/
structure Reporting (made : Callback → Prop) (t : Transfer) : Prop where
  errorBuffer : t.ctrl.errorBuffer = [] ∨ made (.errorText t.ctrl.errorBuffer)
  raises : t.ctrl.env.Raises (·.Proper made)

/-- What a call leaves behind. -/
def Reported (made : Callback → Prop) (t : Transfer) : Prop := t.ctrl.env.Raises (·.Proper made)

namespace Reporting
variable {made : Callback → Prop} {t : Transfer}

/-- A text that libcurl has written, or one that goes with the number of the error. -/
theorem proper_text (h : Reporting made t) (other : ErrorText) {errorDesc : ErrorText}
    (hother : ∀ text, other ≠ .errorBuffer text)
    (hdesc : errorDesc = if t.ctrl.errorBuffer = [] then other
      else .errorBuffer t.ctrl.chompErrorBuffer.errorBuffer) :
    ∀ text, errorDesc = .errorBuffer text →
      ∃ raw, made (.errorText raw) ∧ raw ≠ [] ∧ text = withoutNewline raw := by
  rintro text rfl
  by_cases hempty : t.ctrl.errorBuffer = []
  · rw [if_pos hempty] at hdesc
    exact absurd hdesc.symm (hother text)
  · rw [if_neg hempty] at hdesc
    refine ⟨t.ctrl.errorBuffer, h.errorBuffer.resolve_left hempty, hempty, ?_⟩
    rw [ErrorText.errorBuffer.inj hdesc]
    unfold CurlData.chompErrorBuffer withoutNewline
    split
    · rfl
    · rfl

theorem handleMultiError (h : Reporting made t) (code : CURLMcode) :
    Reported made (t.modify (·.handleMultiError code)) := by
  have hchomped : t.ctrl.chompErrorBuffer.env.Raises (·.Proper made) := by
    rw [CurlData.env_chompErrorBuffer]
    exact h.raises
  unfold Reported Transfer.modify CurlData.handleMultiError
  dsimp only
  split
  · exact hchomped
  · split
    · exact hchomped.throw proper_oom
    · refine hchomped.throw ⟨_, rfl, nofun, fun text htext => ?_⟩
      exact h.proper_text (.multiStrerror code) nofun rfl text
        (Option.some.inj (JavaMessage.passed.inj htext))

/-- Every error of a transfer has a class with a message. -/
theorem raises_throwEasyError {ctrl : CurlData} (hctrl : ctrl.env.Raises (·.Proper made))
    (code : CURLcode) {errorDesc : ErrorText}
    (hdesc : ∀ text, errorDesc = .errorBuffer text →
      ∃ raw, made (.errorText raw) ∧ raw ≠ [] ∧ text = withoutNewline raw) :
    (ctrl.throwEasyError code errorDesc).env.Raises (·.Proper made) := by
  have hpassed {e : Throwable} {thrown : JavaException} (he : e.java = some thrown)
      (hmessage : thrown.message = .passed (some errorDesc)) : e.Proper made := by
    refine ⟨thrown, he, by rw [hmessage]; nofun, fun text htext => hdesc text ?_⟩
    rw [hmessage] at htext
    exact Option.some.inj (JavaMessage.passed.inj htext)
  cases code with
  | outOfMemory => exact hctrl.throw proper_oom
  | sendFailRewind => exact hctrl.throw (.of_message rfl nofun)
  | _ => exact hctrl.throw (hpassed rfl rfl)

theorem handleEasyError (h : Reporting made t) (code : CURLcode) :
    Reported made (t.modify (·.handleEasyError code)) := by
  have hchomped : t.ctrl.chompErrorBuffer.env.Raises (·.Proper made) := by
    rw [CurlData.env_chompErrorBuffer]
    exact h.raises
  unfold Reported Transfer.modify CurlData.handleEasyError
  dsimp only
  split
  · exact h.raises
  · split
    · exact hchomped
    · exact raises_throwEasyError hchomped code
        (h.proper_text (.easyStrerror code) nofun rfl)

theorem invoke (h : Reporting made t) {callback : Callback} (hmade : made callback) :
    Reporting made (t.invoke callback) := by
  refine ⟨?_, ?_⟩
  · rcases errorBuffer_invoke t callback with hsame | hwritten
    · rw [hsame]
      exact h.errorBuffer
    · rw [hwritten] at hmade
      exact .inr hmade
  · rw [env_invoke]
    unfold Callback.raises
    have hkeep : (t.ctrl.env.throwSome none).Raises (·.Proper made) := h.raises
    have hoom := h.raises.throw (@proper_oom made)
    have hbounds := h.raises.throw (@proper_arrayIndexOutOfBounds made)
    split
    · exact hkeep
    · cases callback with
      | errorText text => exact hkeep
      | _ =>
        dsimp only
        split
        · assumption
        · exact hkeep

theorem invokeAll {callbacks : List Callback} (hmade : ∀ c ∈ callbacks, made c)
    (h : Reporting made t) : Reporting made (t.invokeAll callbacks) := by
  induction callbacks generalizing t with
  | nil => exact h
  | cons c callbacks ih =>
    exact ih (fun c hc => hmade c (List.mem_cons_of_mem _ hc))
      (h.invoke (hmade c List.mem_cons_self))

theorem reported (h : Reporting made t) : Reported made t := h.raises

end Reporting

/-! ## The loop -/

section Loop
variable {made : Callback → Prop}

/-- How an iteration leaves a call under way. -/
def Continues (made : Callback → Prop) : Flow → Transfer → Prop
  | .stop _, t => Reported made t
  | .again _, t => Reporting made t

theorem account_reports (it : Iteration) (timer : Timer) :
    Triple (Reporting made) (Transfer.account it timer) (Continues made)
      fun _ => True := by
  unfold Transfer.account
  refine Triple.ite (fun _ => ?_) fun _ => Triple.ite (fun _ => ?_) fun _ => Triple.pure fun _ => id
  · exact Triple.bind (Q := fun _ => Reporting made) (Triple.read fun _ => id) fun timeout =>
      Triple.pure fun _ => id
  · refine Triple.bind (Q := fun _ => Reported made) (Triple.update fun t ht => ?_) fun _ =>
      Triple.pure fun _ => id
    exact ht.raises.throw (proper_timeout _)

theorem await_reports (it : Iteration) (timer : Timer) :
    Triple (Reporting made) (Transfer.await it timer) (Continues made)
      fun _ => True := by
  unfold Transfer.await
  refine Triple.ite (fun _ => ?_) fun _ => account_reports it timer
  refine Triple.bind (Q := fun _ => Reporting made) (Triple.update fun t ht => ?_) fun _ => ?_
  · exact ⟨ht.errorBuffer, ht.raises⟩
  refine Triple.bind (Q := fun _ => Reporting made)
    (Triple.call (fun _ _ ht _ => ht) fun _ _ => trivial) fun answer => ?_
  refine Triple.ite (fun _ => ?_) fun _ => account_reports it _
  exact Triple.bind (Q := fun _ => Reported made)
    (Triple.update fun t ht => ht.handleMultiError _) fun _ => Triple.pure fun _ => id

/-- A transfer that has failed is over, and the rest goes on. -/
theorem checkResult_reports (messages : List CURLMsg) :
    Triple (Reporting made) (Transfer.checkResult messages)
      (fun completed t => Reported made t ∧ (completed = false → Reporting made t))
      fun _ => True := by
  intro t ht
  show Reported made { t with ctrl := _ } ∧ _
  induction messages with
  | nil => exact ⟨ht.raises, fun _ => ht⟩
  | cons msg remaining ih =>
    unfold CurlData.checkResult
    split
    · exact ⟨ht.raises, fun _ => ht⟩
    · split
      · split
        · exact ⟨ht.raises, nofun⟩
        · exact ih
      · split
        · exact ⟨ht.raises, nofun⟩
        · exact ih
      · exact ⟨ht.handleEasyError _, nofun⟩

theorem perform_reports {perform : Perform} (hmade : ∀ c ∈ perform.callbacks, made c) :
    Triple (Reporting made) (Transfer.curlMultiPerform perform) (fun _ => Reporting made)
      fun _ => True :=
  Triple.call (fun _ _ ht _ => ht.invokeAll hmade) fun _ _ => trivial

/-- **One iteration**: it goes on with a text of this call, and ends with a proper exception. -/
theorem iterate_reports {it : Iteration} (timer : Timer)
    (hmade : ∀ c ∈ Transfer.madeIn it, made c) :
    Triple (Reporting made) (Transfer.iterate it timer) (Continues made) fun _ => True := by
  unfold Transfer.iterate
  refine Triple.ite (fun _ => Triple.pure fun _ ht => ht.reported) fun hinterrupted => ?_
  rw [Transfer.madeIn, if_neg hinterrupted] at hmade
  refine Triple.bind (perform_reports hmade) fun answer => ?_
  refine Triple.ite (fun _ => ?_) fun _ => ?_
  · exact Triple.bind (Q := fun _ => Reported made)
      (Triple.update fun t ht => ht.handleMultiError _) fun _ => Triple.pure fun _ => id
  refine Triple.bind (checkResult_reports it.messages) fun completed => ?_
  refine Triple.ite (fun _ => Triple.pure fun _ ht => ht.1) fun hcompleted => ?_
  refine Triple.bind (Q := fun _ => Reporting made)
    (Triple.read fun _ ht => ht.2 (Bool.eq_false_iff.mpr hcompleted)) fun bails => ?_
  refine Triple.ite (fun _ => Triple.pure fun _ ht => ht.reported) fun _ => ?_
  refine Triple.ite (fun _ => Triple.pure fun _ ht => ht.reported) fun _ => ?_
  exact Triple.ite (fun _ => Triple.pure fun _ ht => ht.reported) fun _ => await_reports it timer

/-- **The loop**, however often it goes round. -/
theorem iterateAll_reports (iterations : List Iteration) {timer : Timer} {t t' : Transfer}
    {ended : Bool} (hrun : Transfer.iterateAll iterations timer t = (t', some ended))
    (hmade : ∀ p ∈ Transfer.passes iterations timer t, ∀ c ∈ Transfer.madeIn p.it, made c)
    (ht : Reporting made t) : Reported made t' := by
  induction iterations generalizing timer t with
  | nil => cases hrun
  | cons it iterations ih =>
    obtain ⟨s, flow, hiterate, hflow⟩ := bind_eq_some hrun
    have hone := iterate_reports timer (hmade ⟨it, timer, t⟩ List.mem_cons_self) t ht
    rw [hiterate] at hone
    cases flow with
    | stop result =>
      cases hflow
      exact hone
    | again timer' =>
      rw [Transfer.passes_again hiterate] at hmade
      exact ih hflow (fun p hp => hmade p (List.mem_cons_of_mem _ hp)) hone

theorem curlPerform_reports {loop : Loop} {t t' : Transfer} {ended : Bool}
    (hrun : Transfer.curlPerform loop t = (t', some ended))
    (hmade : ∀ p ∈ Transfer.loopPasses loop t, ∀ c ∈ Transfer.madeIn p.it, made c)
    (ht : Reporting made t) : Reported made t' :=
  iterateAll_reports _ hrun hmade ht

end Loop

/-! ## The methods -/

section Methods
variable {made : Callback → Prop} {t t' : Transfer} {returned : Returned}

/-- A method stores its arguments, and empties the text of the last error. -/
theorem reporting_of_begin (hbuffer : t.ctrl.errorBuffer = []) (henv : t.ctrl.env = ⟨none⟩) :
    Reporting made t :=
  ⟨.inl hbuffer, by rw [henv]; exact JNIEnv.raises_none _⟩

theorem resume_reports {flag : StateBits → Bool} {clear : CurlData → CurlData} {pause : Pause}
    {s : Transfer} {code : CURLcode} (hrun : Transfer.resume flag clear pause t = (s, some code))
    (hclear : ∀ ctrl : CurlData, (clear ctrl).errors = ctrl.errors)
    (hmade : flag t.ctrl.state = true → ∀ c ∈ pause.callbacks, made c) (ht : Reporting made t) :
    Reporting made s := by
  rw [Transfer.resume_eq] at hrun
  by_cases hflag : flag t.ctrl.state = true
  · rw [if_pos hflag] at hrun
    have hs : s = (t.unpaused clear).invokeAll pause.callbacks := (congrArg Prod.fst hrun).symm
    rw [hs]
    have henv : (clear t.ctrl).env = t.ctrl.env := congrArg (·.env) (hclear t.ctrl)
    have hbuffer : (clear t.ctrl).errorBuffer = t.ctrl.errorBuffer :=
      congrArg (·.errorBuffer) (hclear t.ctrl)
    have hunpaused : Reporting made (t.unpaused clear) := by
      refine ⟨?_, ?_⟩
      · show (clear t.ctrl).errorBuffer = [] ∨ made (.errorText (clear t.ctrl).errorBuffer)
        rw [hbuffer]
        exact ht.errorBuffer
      · show (clear t.ctrl).env.Raises _
        rw [henv]
        exact ht.raises
    exact hunpaused.invokeAll (hmade hflag)
  · rw [if_neg hflag] at hrun
    cases hrun
    exact ht

/-- **A method that goes on with a direction.** -/
theorem Resuming.Exit.reports {m : Resuming} (h : m.Exit t')
    (hclear : ∀ ctrl : CurlData, (m.clear ctrl).errors = ctrl.errors)
    (hbegins : Reporting made m.begins)
    (hmade : ∀ a, m.Attempts a → ∀ c ∈ a.callbacks, made c) : Reported made t' := by
  have hresumed {s : Transfer} {code : CURLcode} (h : m.resume m.begins = (s, some code)) :
      Reporting made s :=
    resume_reports h hclear (fun hflag => hmade _ (.inl ⟨hflag, rfl⟩)) hbegins
  cases h with
  | refused h _ => exact (hresumed h).handleEasyError _
  | stays h _ => exact (hresumed h).reported
  | loops h henters hloop =>
    exact curlPerform_reports hloop
      (fun p hp => hmade (.pass p) (.inr ⟨_, p, h, henters, hp, rfl⟩)) (hresumed h)

theorem ConnectExit.reports {c : Configure} (hurl : c.urlBufferOk = true)
    (h : ConnectExit c (c.connecting t) t') : Reported ((Call.nativeConfigure c).Makes t) t' := by
  obtain ⟨henv, hbuffer⟩ := connecting_begins c t
  have hbegins : Reporting ((Call.nativeConfigure c).Makes t) (c.connecting t) :=
    reporting_of_begin hbuffer henv
  have hperformed (hinterrupted : c.interrupted = false) :
      Reporting ((Call.nativeConfigure c).Makes t)
        ((c.connecting t).invokeAll c.perform.callbacks) :=
    hbegins.invokeAll fun callback hc => ⟨_, .connect hurl hinterrupted, hc⟩
  have hchecked {s : Transfer} {running : Nat} {completed : Bool}
      (hinterrupted : c.interrupted = false)
      (hended : Transfer.hasEnded running c.messages
        ((c.connecting t).invokeAll c.perform.callbacks) = (s, some completed)) :
      Reported ((Call.nativeConfigure c).Makes t) s ∧
        (completed = false → Reporting ((Call.nativeConfigure c).Makes t) s) := by
    unfold Transfer.hasEnded at hended
    split at hended
    · have h := checkResult_reports c.messages _ (hperformed hinterrupted)
      rw [hended] at h
      exact h
    · cases hended
      exact ⟨(hperformed hinterrupted).reported, fun _ => hperformed hinterrupted⟩
  cases h with
  | interrupted _ => exact hbegins.reported
  | multiError hinterrupted _ _ => exact (hperformed hinterrupted).handleMultiError _
  | completed hinterrupted _ hended => exact (hchecked hinterrupted hended).1
  | looped hinterrupted hreturns hended hloop =>
    exact curlPerform_reports hloop
      (fun p hp callback hc => ⟨_, .connected hurl hinterrupted hreturns hended hp, hc⟩)
      ((hchecked hinterrupted hended).2 rfl)

/-- **A method that is declared to throw an `IOException`** raises proper exceptions. -/
theorem method_reports {call : Call} (hcall : call.throwsIOException = true)
    (hbusy : t.ctrl.busy = false) (hrun : call.run t = (t', some returned)) :
    Reported (call.Makes t) t' := by
  unfold Reported
  cases call with
  | nativeConfigure c =>
    rcases exit_of_nativeConfigure hbusy hrun with ⟨-, henv⟩ | ⟨hurl, s, hexit, henv⟩
    · rw [henv]
      exact (JNIEnv.raises_none _).throw proper_oom
    · rw [henv]
      exact hexit.reports hurl
  | read r =>
    obtain ⟨s, hexit, henv⟩ := exit_of_read hbusy hrun
    rw [henv]
    exact hexit.reports (fun _ => rfl) (reporting_of_begin rfl rfl)
      fun a ha c hc => ⟨a, attempted_read.mpr ha, hc⟩
  | write w =>
    cases hgoal : t.ctrl.goalReached with
    | true =>
      rw [Call.run, Transfer.write_closed hbusy hgoal] at hrun
      cases hrun
      exact (JNIEnv.raises_none _).throw (proper_closed _)
    | false =>
      obtain ⟨s, hexit, henv⟩ := exit_of_write hbusy hgoal hrun
      rw [henv]
      exact hexit.reports (fun _ => rfl) (reporting_of_begin rfl rfl)
        fun a ha c hc => ⟨a, (attempted_write hgoal).mpr ha, hc⟩
  | closeOutput c =>
    obtain ⟨s, hexit, henv⟩ := exit_of_closeOutput hbusy hrun
    rw [henv]
    exact hexit.reports (fun _ => rfl) (reporting_of_begin rfl rfl)
      fun a ha c hc => ⟨a, attempted_closeOutput.mpr ha, hc⟩
  | _ => cases hcall

end Methods

/-! ## Every call -/

section Calls

/-- A method that takes the lock begins without an exception, or raises the one for the lock. -/
theorem acquire_raises {failure : Returned} {method : Program Transfer Returned}
    (h : Triple (fun t => t.ctrl.env = ⟨none⟩) method
      (fun _ t => t.ctrl.env.Raises Throwable.OfHeaders) fun _ => True) :
    Triple (fun _ => True) (Transfer.acquire failure method)
      (fun _ t => t.ctrl.env.Raises Throwable.OfHeaders) fun _ => True := by
  intro t _
  cases hbusy : t.ctrl.busy with
  | true =>
    rw [Transfer.acquire_taken hbusy]
    rintro _ ⟨⟩
    simp [Throwable.OfHeaders]
  | false =>
    rw [Transfer.acquire_free hbusy]
    exact h t.entered rfl

/-- A call for headers raises what its function raises. -/
theorem locked_raises {failure : Returned} {method : Transfer → Option (CurlData × Returned)}
    (h : ∀ t ctrl result, method t = some (ctrl, result) →
      t.ctrl.env.Raises Throwable.OfHeaders → ctrl.env.Raises Throwable.OfHeaders) :
    Triple (fun _ => True) (Transfer.locked failure method)
      (fun _ t => t.ctrl.env.Raises Throwable.OfHeaders) fun _ => True := by
  refine acquire_raises (Triple.bind
    (Q := fun _ t => t.ctrl.env.Raises Throwable.OfHeaders) (fun t henv => ?_) fun _ => ?_)
  · have hnone : t.ctrl.env.Raises Throwable.OfHeaders := by
      rw [henv]
      exact JNIEnv.raises_none _
    cases hm : method t with
    | none => trivial
    | some answer => exact h t _ _ hm hnone
  · exact Triple.bind (Q := fun _ t => t.ctrl.env.Raises Throwable.OfHeaders)
      (Triple.update fun t ht => ht) fun _ => Triple.pure fun _ => id

/-- **The calls that are not declared to throw an `IOException`** raise none. -/
theorem headers_raise {call : Call} (hcall : call.throwsIOException = false) :
    Triple (fun _ => True) call.run (fun _ t => t.ctrl.env.Raises Throwable.OfHeaders)
      fun _ => True := by
  cases call with
  | nativeConfigure c => cases hcall
  | read r => cases hcall
  | write w => cases hcall
  | closeOutput c => cases hcall
  | reset =>
    refine acquire_raises (Triple.bind
      (Q := fun _ t => t.ctrl.env.Raises Throwable.OfHeaders) (Triple.update fun t henv => ?_)
      fun _ => ?_)
    · have hdetach : t.detach.ctrl.env = ⟨none⟩ := by
        unfold Transfer.detach
        split
        · exact henv
        · exact henv
      rw [hdetach]
      exact JNIEnv.raises_none _
    · refine Triple.bind (Q := fun _ t => t.ctrl.env.Raises Throwable.OfHeaders)
        (Triple.update fun t ht => ht) fun _ => ?_
      exact Triple.bind (Q := fun _ t => t.ctrl.env.Raises Throwable.OfHeaders)
        (Triple.update fun t ht => ht) fun _ => Triple.pure fun _ => id
  | getHeaders outHeaders alloc =>
    refine locked_raises fun t ctrl result h hctrl => ?_
    split at h
    · obtain ⟨answer, hanswer, heq⟩ := Option.map_eq_some_iff.mp h
      cases heq
      exact raisesOfHeaders_getResponseHeaders hctrl hanswer
    · cases h
      exact raisesOfHeaders_getRequestHeaders hctrl
  | header stringOk key l beyond =>
    show Triple _ (Transfer.header stringOk key l beyond) _ _
    unfold Transfer.header
    refine locked_raises fun t ctrl result h hctrl => ?_
    cases h
    dsimp only
    split
    · exact hctrl.throw ofHeaders_outOfMemoryError
    · exact hctrl
  | intHeader code default key l beyond =>
    show Triple _ (Transfer.intHeader code default key l beyond) _ _
    unfold Transfer.intHeader
    refine locked_raises fun t ctrl result h hctrl => ?_
    cases h
    exact hctrl
  | setHeader alloc key value =>
    refine locked_raises fun t ctrl result h hctrl => ?_
    obtain ⟨ctrl', hctrl', heq⟩ := Option.map_eq_some_iff.mp h
    cases heq
    exact raisesOfHeaders_setHeader hctrl hctrl'
  | addHeader alloc key value =>
    show Triple _ (Transfer.addHeader alloc key value) _ _
    unfold Transfer.addHeader
    refine locked_raises fun t ctrl result h hctrl => ?_
    cases h
    exact raisesOfHeaders_addHeader hctrl alloc key value
  | outHeader alloc stringOk key =>
    refine locked_raises fun t ctrl result h hctrl => ?_
    obtain ⟨⟨ctrl', str⟩, hctrl', heq⟩ := Option.map_eq_some_iff.mp h
    cases heq
    exact raisesOfHeaders_outHeader hctrl hctrl'
  | clearHeaders =>
    show Triple _ Transfer.clearHeaders _ _
    unfold Transfer.clearHeaders
    refine locked_raises fun t ctrl result h hctrl => ?_
    cases h
    exact hctrl
  | setOptionInt value option =>
    show Triple _ (Transfer.setOptionInt value option) _ _
    unfold Transfer.setOptionInt
    refine locked_raises fun t ctrl result h hctrl => ?_
    cases h
    exact hctrl

/-- **What a call raises is proper.** -/
theorem run_reports {call : Call} {t t' : Transfer} {returned : Returned}
    (hrun : call.run t = (t', some returned)) : Reported (call.Makes t) t' := by
  cases hcall : call.throwsIOException with
  | false =>
    have hheaders := headers_raise hcall t trivial
    rw [hrun] at hheaders
    intro e he
    obtain ⟨thrown, hthrown, -, hmessage⟩ := (hheaders e he).java
    exact .of_message hthrown hmessage
  | true =>
    cases hbusy : t.ctrl.busy with
    | true =>
      obtain ⟨returned', htaken⟩ := call.run_taken hbusy
      cases hrun.symm.trans htaken
      rintro _ ⟨⟩
      exact proper_threading
    | false => exact method_reports hcall hbusy hrun

/-- **Exceptions are thrown, declared and about their call.**  Whatever state a native method
is called in and whatever libcurl does, an exception that is pending when it comes back is
thrown by `Curl.throwException` or by JNI; it is an `IOException` only if the method is
declared to throw one; its message is not `null`; and a text of libcurl in it has been
written during this call. -/
theorem raised_proper {call : Call} {t t' : Transfer} {returned : Returned} {e : Throwable}
    (hrun : call.run t = (t', some returned)) (hpending : t'.ctrl.env.pending = some e) :
    ∃ thrown, e.java = some thrown ∧
      (thrown.javaClass.isIOException = true → call.throwsIOException = true) ∧
      thrown.message ≠ .passed none ∧
      ∀ text, thrown.message = .passed (some (.errorBuffer text)) →
        ∃ raw, call.Makes t (.errorText raw) ∧ raw ≠ [] ∧ text = withoutNewline raw := by
  obtain ⟨thrown, hthrown, hmessage, htext⟩ := run_reports hrun e hpending
  refine ⟨thrown, hthrown, fun hchecked => ?_, hmessage, htext⟩
  cases hcall : call.throwsIOException with
  | true => rfl
  | false =>
    have hheaders := headers_raise hcall t trivial
    rw [hrun] at hheaders
    obtain ⟨thrown', hthrown', hunchecked, -⟩ := (hheaders e hpending).java
    cases hthrown.symm.trans hthrown'
    rw [hchecked] at hunchecked
    cases hunchecked

/-- A `read` during which the server resets the connection: libcurl writes a text with a
newline, and the transfer is over. -/
def readReset : BodyCall :=
  { readSlowly 0 with
    loop := ⟨⟨0, 0⟩, [⟨false, ⟨[.errorText [82, 101, 115, 101, 116, 10]], some (.ok, 0)⟩,
      [⟨true, .recvError⟩], false, 0, none, ⟨0, 0⟩⟩]⟩ }

/-- It throws a `SocketException` with the text, which that `read` has been given. -/
theorem raised_proper_readReset :
    ∃ raw, (Call.read readReset).Makes (downloading []) (.errorText raw) ∧ raw ≠ [] ∧
      [82, 101, 115, 101, 116] = withoutNewline raw := by
  obtain ⟨thrown, hthrown, -, -, htext⟩ := @raised_proper (.read readReset) (downloading []) _ _
    (.byCallback .socketMystery (some (.errorBuffer [82, 101, 115, 101, 116])) 0) rfl rfl
  cases hthrown
  exact htext _ rfl

end Calls
end Chttpc
