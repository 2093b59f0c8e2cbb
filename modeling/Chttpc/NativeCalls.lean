import Chttpc.HeaderArray
import Chttpc.RequestHeaders
import Chttpc.Transfer

/-!
# The native methods of `Curl`

Each method takes the lock of the handle, and throws if it is taken.  What
follows is the method's own; where it ends, it gives the lock back.  `write` has
one exit that does not, which the model keeps: the one for an upload whose
announced length has been reached.

Most of `nativeConfigure` hands options to libcurl.  The model keeps those that
something reads later: the callbacks, the request headers, the upload goal, the
timeouts and the flags.  `throwInterruptedException` has an empty body.

`runCalls` makes calls one after another on one thread.  A call that is still
running when its script ends is the last one, so every state of a run is the one
`runCalls` reaches for some calls and scripts.
-/

namespace Chttpc

/-- What a native method returns. -/
inductive Returned
  | void
  | int (n : Int)
  | string (str : Option JString)
  | array (elements : Option (List (Option JString)))
  | chars (url : Option (List UInt16))
  deriving DecidableEq, Repr

/-- The arguments of `nativeConfigure` and what the call meets: the response that
will be sent, the allocation of `urlBuffer`, the interruption flag, the first
`curl_multi_perform`, the loop, the effective URL, and the allocation of a longer
array for it. -/
structure Configure where
  fixedLength : Int
  url : List UInt16
  urlLength : Nat
  readTimeout : Int
  connTimeout : Int
  followRedirects : Bool
  doInput : Bool
  doOutput : Bool
  response : List UInt8
  urlBufferOk : Bool
  interrupted : Bool
  perform : Perform
  messages : List CURLMsg
  loop : Loop
  effectiveUrl : Option (List UInt8)
  newArrayOk : Bool

/-- The arguments of `read` and `write` and what the call meets: a call of
`curl_easy_pause` if the direction is paused, the interruption flag before and
after the loop, and the loop. -/
structure BodyCall where
  buf : Option (List UInt8)
  off : Int
  count : Int
  pause : Pause
  interrupted : Bool
  loop : Loop
  interruptedAgain : Bool

/-- What `closeOutput` meets. -/
structure Close where
  pause : Pause
  loop : Loop

/-! ## `nativeConfigure` -/

namespace Configure
variable (c : Configure)

/-- `readTimeout <= 0 ? INT32_MAX : readTimeout`. -/
def timeoutOrMax (timeout : Int) : Int := if timeout ≤ 0 then 2 ^ 31 - 1 else timeout

/-- The upload has a length that is known beforehand. -/
def fixed : Bool := c.doOutput && c.fixedLength != 0

def setCtrl (ctrl : CurlData) : CurlData :=
  { ctrl with
    state := { ctrl.state with
      handleRedirect := c.followRedirects, doOutput := c.fixed, doInput := c.doInput }
    uploadGoal := if c.fixed then toUInt64 c.fixedLength else 0
    readTimeout := timeoutOrMax c.readTimeout
    connTimeout := timeoutOrMax c.connTimeout }

def setCurl (outHeaders : List (List UInt8)) (curl : Libcurl) : Libcurl :=
  { curl with
    requestHeaders := outHeaders
    writeFunction :=
      if c.doInput then .writeCallback
      else if c.doOutput then .skipReceiveCallback else .abortReceiveCallback
    readFunction := if c.doOutput then .readCallback else curl.readFunction }

/-- The options, and `curl_multi_add_handle` unless the handle is attached. -/
def attach (t : Transfer) : Transfer :=
  let t := { t with ctrl := c.setCtrl t.ctrl, curl := c.setCurl t.ctrl.outHeaders t.curl }
  if t.ctrl.state.attached then t
  else
    { t with
      ctrl := { t.ctrl with state := { t.ctrl.state with attached := true } }
      curl := t.curl.addHandle c.response
      copied := []
      accesses := [] }

def urlBuffer : List UInt8 := narrow (c.url.take c.urlLength)

/-- The array of the URL, with the effective URL in it if that is another one. -/
def effective (platform : Platform) : Option (List UInt16) :=
  match c.effectiveUrl with
  | none => some c.url
  | some effectiveUrl =>
      if effectiveUrl = cString c.urlBuffer then some c.url
      else
        let newUrl := effectiveUrl.map platform.jchar
        if c.url.length < newUrl.length then if c.newArrayOk then some newUrl else none
        else if newUrl.length < c.url.length then
          some (newUrl ++ 0 :: c.url.drop (newUrl.length + 1))
        else some newUrl

end Configure

/-! ### What a method sets first -/

namespace CurlData

def beginConfigure (ctrl : CurlData) : CurlData :=
  { ctrl with countToRead := 0, countToWrite := 0, errorBuffer := [] }

def beginRead (r : BodyCall) (ctrl : CurlData) : CurlData :=
  { ctrl.setNeedInput true with
    readOffset := r.off, countToRead := r.count, countToWrite := 0, bufferForReceiving := r.buf
    errorBuffer := [] }

def beginWrite (w : BodyCall) (ctrl : CurlData) : CurlData :=
  { ctrl.setNeedOutput true with
    writeOffset := w.off, countToWrite := w.count, countToRead := 0, bufferForSending := w.buf
    errorBuffer := [] }

def beginClose (ctrl : CurlData) : CurlData :=
  { (ctrl.setNeedOutput true).setDoneSending with
    countToRead := 0, countToWrite := 0, errorBuffer := [] }

end CurlData

namespace Transfer

/-- `ACQUIRE(ctrl->busy)`, and the exception if it fails.  No exception is pending
when Java calls. -/
def acquire {α : Type} (failure : α) (method : Program Transfer α) : Program Transfer α := do
  update fun ctrl => { ctrl with env := ⟨none⟩ }
  let busy ← get (·.busy)
  update fun ctrl => { ctrl with busy := true }
  if busy then
    update (·.throwThreadingException)
    pure failure
  else method

/-- The state of a call that has taken the lock. -/
def entered (t : Transfer) : Transfer :=
  { t with ctrl := { t.ctrl with env := ⟨none⟩, busy := true } }

/-- Taking the lock when it is free. -/
theorem acquire_free {α : Type} {failure : α} {method : Program Transfer α} {t : Transfer}
    (h : t.ctrl.busy = false) : acquire failure method t = method t.entered := by
  show (if t.ctrl.busy = true then _ else method : Program Transfer α) _ = _
  rw [if_neg (by rw [h]; decide)]
  rfl

/-- A call that does not get the lock changes nothing but the pending exception. -/
theorem acquire_taken {α : Type} {failure : α} {method : Program Transfer α} {t : Transfer}
    (h : t.ctrl.busy = true) :
    acquire failure method t =
      ({ t with ctrl := { t.ctrl with env := ⟨some threadingException⟩ } }, some failure) := by
  show (if t.ctrl.busy = true then _ else method : Program Transfer α) _ = _
  rw [if_pos h]
  show (({ t with ctrl := { t.ctrl with env := ⟨some threadingException⟩, busy := true } } :
    Transfer), some failure) = _
  rw [← h]

/-- A call that has come back without an exception has had the lock. -/
theorem free_of_acquire {α : Type} {failure returned : α} {method : Program Transfer α}
    {t t' : Transfer} (hcall : acquire failure method t = (t', some returned))
    (hquiet : t'.ctrl.env.pending = none) : t.ctrl.busy = false := by
  by_contra hbusy
  rw [acquire_taken (Bool.not_eq_false _ ▸ hbusy)] at hcall
  cases hcall
  cases hquiet

/-- `RELEASE(ctrl->busy)`. -/
def release : Program Transfer Unit := update fun ctrl => { ctrl with busy := false }

/-- `!running && checkResult(ctrl)`. -/
def hasEnded (running : Nat) (messages : List CURLMsg) : Program Transfer Bool :=
  if running = 0 then checkResult messages else pure false

/-- `nativeConfigure` from the first look at the interruption flag on. -/
def connect (c : Configure) : Program Transfer (List UInt16) := do
  if c.interrupted then pure c.url
  else
    let (connectResult, running) ← curlMultiPerform c.perform
    if connectResult ≠ .ok then
      update (·.handleMultiError connectResult)
      pure c.url
    else
      let completed ← hasEnded running c.messages
      if completed then pure c.url
      else
        let ended ← curlPerform c.loop
        if ended then pure c.url
        else if c.followRedirects then
          let platform ← Program.read (·.platform)
          match c.effective platform with
          | some url => pure url
          | none => Program.inside
        else pure c.url

/-- `nativeConfigure`, up to the labels `enough` and `whoops`. -/
def configureBody (c : Configure) : Program Transfer (List UInt16) := do
  update (·.beginConfigure)
  if c.urlBufferOk = false then
    update (·.oomThrow)
    pure c.url
  else
    Program.update c.attach
    connect c

theorem configureBody_eq (c : Configure) (t : Transfer) :
    configureBody c t =
      if c.urlBufferOk = false then ((t.modify (·.beginConfigure)).modify (·.oomThrow), some c.url)
      else connect c (c.attach (t.modify (·.beginConfigure))) := by
  unfold configureBody
  split <;> rfl

def nativeConfigure (c : Configure) : Program Transfer Returned :=
  acquire (.chars none) do
    let url ← configureBody c
    release
    pure (.chars (some url))

/-- `curl_multi_remove_handle`, if the handle is attached. -/
def detach (t : Transfer) : Transfer :=
  if t.ctrl.state.attached then
    { t with curl := t.curl.removeHandle, copied := [], accesses := [] }
  else t

def reset : Program Transfer Returned :=
  acquire .void do
    Program.update detach
    update (·.reset)
    release
    pure .void

/-! ## `read`, `write` and `closeOutput` -/

/-- Unpauses a direction if its flag is set. -/
def resume (flag : StateBits → Bool) (clear : CurlData → CurlData) (pause : Pause) :
    Program Transfer CURLcode := do
  let paused ← get (flag ·.state)
  if paused then
    update clear
    curlEasyPause pause
  else pure .ok

def resumeReceiving (pause : Pause) : Program Transfer CURLcode :=
  resume (·.recvPaused) (·.setRecvPaused false) pause

def resumeSending (pause : Pause) : Program Transfer CURLcode :=
  resume (·.sendPaused) (·.setSendPaused false) pause

/-- `read`, from the label `success` on. -/
def readResult (count : Int) : Program Transfer Int :=
  get fun ctrl => if count = 1 then ctrl.readOffset else count - ctrl.countToRead

/-- `read`, once its arguments are stored. -/
def receive (r : BodyCall) : Program Transfer Int := do
  let result ← resumeReceiving r.pause
  if result ≠ .ok then
    update (·.handleEasyError result)
    pure (-1)
  else if r.interrupted then readResult r.count
  else
    let ended ← curlPerform r.loop
    let countToRead ← get (·.countToRead)
    if r.interruptedAgain = false ∧ ended = true ∧ 0 < countToRead ∧ countToRead = r.count then
      pure (-1)
    else readResult r.count

/-- `read` up to the label `enough`. -/
def readBody (r : BodyCall) : Program Transfer Int := do
  update (·.beginRead r)
  receive r

def read (r : BodyCall) : Program Transfer Returned :=
  acquire (.int (-1)) do
    let retVal ← readBody r
    update (·.setNeedInput false)
    release
    pure (.int retVal)

/-- `write`, once its arguments are stored. -/
def send (w : BodyCall) : Program Transfer Unit := do
  let result ← resumeSending w.pause
  if result ≠ .ok then update (·.handleEasyError result)
  else if w.interrupted then pure ()
  else
    let countToWrite ← get (·.countToWrite)
    if 0 < countToWrite then
      let _ ← curlPerform w.loop
      pure ()
    else pure ()

/-- `write` up to the label `enough`. -/
def writeBody (w : BodyCall) : Program Transfer Unit := do
  update (·.beginWrite w)
  send w

end Transfer

/-- All of the announced upload has been handed over. -/
def CurlData.goalReached (ctrl : CurlData) : Bool :=
  ctrl.uploadGoal != 0 && decide (ctrl.uploadGoal ≤ ctrl.uploadedCount)

namespace Transfer

/-- `write`, of an upload that has not reached its goal. -/
def writeOpen (w : BodyCall) : Program Transfer Returned := do
  writeBody w
  update (·.setNeedOutput false)
  release
  let countToWrite ← get (·.countToWrite)
  pure (.int (w.count - countToWrite))

def write (w : BodyCall) : Program Transfer Returned :=
  acquire (.int (-1)) do
    let closed ← get (·.goalReached)
    if closed then
      -- this exit keeps the lock
      update (·.throwOther (.literal []) .closed)
      pure (.int (-1))
    else writeOpen w

theorem write_open {w : BodyCall} {t : Transfer} (h : t.ctrl.busy = false)
    (hgoal : t.ctrl.goalReached = false) : write w t = writeOpen w t.entered := by
  have hclosed : ¬ t.entered.ctrl.goalReached = true := by
    show ¬ t.ctrl.goalReached = true
    rw [hgoal]
    decide
  rw [write, acquire_free h]
  show (if t.entered.ctrl.goalReached = true then _ else writeOpen w : Program _ _) _ = _
  rw [if_neg hclosed]

/-- The exit that keeps the lock. -/
theorem write_closed {w : BodyCall} {t : Transfer} (h : t.ctrl.busy = false)
    (hgoal : t.ctrl.goalReached = true) :
    write w t = (t.entered.modify (·.throwOther (.literal []) .closed), some (.int (-1))) := by
  have hclosed : t.entered.ctrl.goalReached = true := hgoal
  rw [write, acquire_free h]
  show (if t.entered.ctrl.goalReached = true then _ else writeOpen w : Program _ _) _ = _
  rw [if_pos hclosed]
  rfl

/-- `closeOutput`, once the upload is marked as complete. -/
def finish (c : Close) : Program Transfer Unit := do
  let result ← resumeSending c.pause
  if result ≠ .ok then update (·.handleEasyError result)
  else
    let paused ← get (·.state.sendPaused)
    if paused then pure ()
    else
      let _ ← curlPerform c.loop
      pure ()

/-- `CURLOPT_READFUNCTION` becomes `eof_callback`. -/
def setEof (t : Transfer) : Transfer := { t with curl := { t.curl with readFunction := .eofCallback } }

/-- `closeOutput` up to the label `enough`. -/
def closeBody (c : Close) : Program Transfer Unit := do
  update (·.beginClose)
  Program.update setEof
  finish c

def closeOutput (c : Close) : Program Transfer Returned :=
  acquire .void do
    closeBody c
    update (·.setNeedOutput false)
    release
    pure .void

/-! ## Headers -/

/-- Runs a function of the handle that returns at once, or faults. -/
def locked (failure : Returned)
    (method : Transfer → Option (CurlData × Returned)) : Program Transfer Returned :=
  acquire failure do
    let result ← (fun t => match method t with
      | some (ctrl, result) => ({ t with ctrl }, some result)
      | none => (t, none) : Program Transfer Returned)
    release
    pure result

/-- `getHeaders`.  It does not come back if the traversal of a ring does not. -/
def getHeaders (outHeaders : Bool) (alloc : ArrayAlloc) : Program Transfer Returned :=
  locked (.array none) fun t =>
    if outHeaders then
      (t.ctrl.getResponseHeaders t.platform alloc).map fun result =>
        ({ t.ctrl with env := result.env }, .array result.strArray)
    else
      let result := t.ctrl.getRequestHeaders t.platform alloc
      some ({ t.ctrl with env := result.env }, .array result.strArray)

def header (stringOk : Bool) (key : Option JString) (l : Int) (beyond : Nat → UInt8) :
    Program Transfer Returned :=
  locked (.string none) fun t =>
    let found := t.ctrl.getHeader key l beyond
    let env := if found.isSome ∧ stringOk = false then t.ctrl.env.throw .outOfMemoryError
      else t.ctrl.env
    some ({ t.ctrl with env }, .string (t.ctrl.header t.platform stringOk key l beyond))

def intHeader (responseCode defaultValue : Int) (key : Option JString) (l : Int)
    (beyond : Nat → UInt8) : Program Transfer Returned :=
  locked (.int (-1)) fun t =>
    some (t.ctrl, .int (t.ctrl.intHeader responseCode defaultValue key l beyond))

def setHeader (alloc : HeaderAlloc) (key : JString) (value : Option JString) :
    Program Transfer Returned :=
  locked .void fun t => (t.ctrl.setHeader alloc key value).map fun ctrl => (ctrl, .void)

def addHeader (alloc : HeaderAlloc) (key value : JString) : Program Transfer Returned :=
  locked .void fun t => some (t.ctrl.addHeader alloc key value, .void)

def outHeader (alloc : HeaderAlloc) (stringOk : Bool) (key : JString) :
    Program Transfer Returned :=
  locked (.string none) fun t =>
    (t.ctrl.outHeader t.platform alloc stringOk key).map fun (ctrl, str) => (ctrl, .string str)

def clearHeaders : Program Transfer Returned :=
  locked .void fun t => some (t.ctrl.clearHeaders, .void)

/-- `setOptionInt` hands a number to libcurl. -/
def setOptionInt (_value _option : Int) : Program Transfer Returned :=
  locked .void fun t => some (t.ctrl, .void)

end Transfer

/-! ## Calls in turn -/

/-- A native call, with its arguments and what it meets. -/
inductive Call
  | nativeConfigure (c : Configure)
  | read (r : BodyCall)
  | write (w : BodyCall)
  | closeOutput (c : Close)
  | reset
  | getHeaders (outHeaders : Bool) (alloc : ArrayAlloc)
  | header (stringOk : Bool) (key : Option JString) (l : Int) (beyond : Nat → UInt8)
  | intHeader (responseCode defaultValue : Int) (key : Option JString) (l : Int)
      (beyond : Nat → UInt8)
  | setHeader (alloc : HeaderAlloc) (key : JString) (value : Option JString)
  | addHeader (alloc : HeaderAlloc) (key value : JString)
  | outHeader (alloc : HeaderAlloc) (stringOk : Bool) (key : JString)
  | clearHeaders
  | setOptionInt (value option : Int)

def Call.run : Call → Program Transfer Returned
  | .nativeConfigure c => Transfer.nativeConfigure c
  | .read r => Transfer.read r
  | .write w => Transfer.write w
  | .closeOutput c => Transfer.closeOutput c
  | .reset => Transfer.reset
  | .getHeaders outHeaders alloc => Transfer.getHeaders outHeaders alloc
  | .header stringOk key l beyond => Transfer.header stringOk key l beyond
  | .intHeader responseCode defaultValue key l beyond =>
      Transfer.intHeader responseCode defaultValue key l beyond
  | .setHeader alloc key value => Transfer.setHeader alloc key value
  | .addHeader alloc key value => Transfer.addHeader alloc key value
  | .outHeader alloc stringOk key => Transfer.outHeader alloc stringOk key
  | .clearHeaders => Transfer.clearHeaders
  | .setOptionInt value option => Transfer.setOptionInt value option

/-- The call changes the list of request headers. -/
def Call.edits : Call → Bool
  | .setHeader .. | .addHeader .. | .clearHeaders => true
  | _ => false

/-- Every callback that libcurl makes in the call is of the kind. -/
def Call.All (ok : Callback → Prop) : Call → Prop
  | .nativeConfigure c => (∀ callback ∈ c.perform.callbacks, ok callback) ∧ c.loop.All ok
  | .read r => r.pause.All ok ∧ r.loop.All ok
  | .write w => w.pause.All ok ∧ w.loop.All ok
  | .closeOutput c => c.pause.All ok ∧ c.loop.All ok
  | _ => True

/-- Makes the calls one after another. -/
def runCalls (calls : List Call) : Program Transfer Unit := Program.forEach Call.run calls

/-- An iteration in which libcurl makes the callbacks and goes on running. -/
def quietIteration (callbacks : List Callback) : Iteration :=
  ⟨false, ⟨callbacks, some (.ok, 1)⟩, [], false, -1, none, ⟨0, 0⟩⟩

/-- The handle as `nativeCreate` leaves it, with libcurl's easy handle. -/
def Transfer.fresh (platform : Platform) (rodata : Nat → UInt8) : Transfer where
  platform
  rodata
  ctrl := Chttpc.nativeCreate
  curl := ⟨.writeCallback, .readCallback, false, false, false, [], 0, [], false, []⟩
  waits := []
  copied := []
  accesses := []

end Chttpc
