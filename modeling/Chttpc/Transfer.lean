import Chttpc.BodyCallback
import Chttpc.Program

/-!
# A transfer: the handle, libcurl, and `curlPerform`

`Transfer` is everything a native call acts on: the handle, the state of libcurl
that the calls can influence, and a ledger of what has been observed from
outside.  The ledger is written and never read.

libcurl itself is a script.  A call of `curl_multi_perform` or `curl_easy_pause`
invokes the callbacks the script lists, in that order, and then returns what the
script says, or has not returned yet.  `Libcurl` keeps what the contract of the
callbacks ties together: a chunk offered to `write_callback` starts at the first
byte of the response that has not been accepted, a return of its length accepts
it, `CURL_READFUNC_PAUSE` accepts nothing and pauses the direction, and
unpausing one direction unpauses both.  Everything else about libcurl, the
network, the clock and the interruption flag is left to the script: which
callbacks run, how long the chunks are, what each function returns.

`curlPerform` runs over a list of iterations.  Where the list ends, the loop is
caught at its head, about to begin another one.
-/

namespace Chttpc

/-! ## libcurl -/

/-- The functions `CURLOPT_WRITEFUNCTION` is set to. -/
inductive WriteFunction
  | writeCallback | skipReceiveCallback | abortReceiveCallback
  deriving DecidableEq, Repr

/-- The functions `CURLOPT_READFUNCTION` is set to. -/
inductive ReadFunction
  | readCallback | eofCallback
  deriving DecidableEq, Repr

structure Libcurl where
  writeFunction : WriteFunction
  readFunction : ReadFunction
  /-- The easy handle has been added to the multi handle. -/
  attached : Bool
  recvPaused : Bool
  sendPaused : Bool
  /-- The response body, and how much of it `write_callback` has accepted. -/
  body : List UInt8
  accepted : Nat
  /-- The bytes `read_callback` has handed over. -/
  uploaded : List UInt8
  /-- libcurl has been told that the upload is complete. -/
  endOfUpload : Bool
  /-- `CURLOPT_HTTPHEADER`: the list that the handle has had when libcurl was given it. -/
  requestHeaders : List (List UInt8)
  deriving Repr

namespace Libcurl

/-- `curl_multi_add_handle`, for a transfer that will be answered with `body`. -/
def addHandle (body : List UInt8) (curl : Libcurl) : Libcurl :=
  { curl with
    attached := true, recvPaused := false, sendPaused := false, body, accepted := 0, uploaded := []
    endOfUpload := false }

/-- `curl_multi_remove_handle`. -/
def removeHandle (curl : Libcurl) : Libcurl :=
  { curl with
    attached := false, recvPaused := false, sendPaused := false, body := [], accepted := 0
    uploaded := [], endOfUpload := false }

/-- `CURLPAUSE_RECV_CONT` and `CURLPAUSE_SEND_CONT` are both zero. -/
def unpause (curl : Libcurl) : Libcurl := { curl with recvPaused := false, sendPaused := false }

/-- The chunk of at most `n` bytes that `write_callback` is offered. -/
def offer (curl : Libcurl) (n : Nat) : List UInt8 := (curl.body.drop curl.accepted).take n

/-- Takes the answer of `write_callback` to a chunk. -/
def afterWrite (length : Nat) (result : CallbackReturn) (curl : Libcurl) : Libcurl :=
  match result with
  | .pause => { curl with recvPaused := true }
  | .bytes n => if n = length then { curl with accepted := curl.accepted + length } else curl

/-- Takes the answer of the read function, which has placed `bytes`. -/
def afterRead (bytes : List UInt8) (result : CallbackReturn) (curl : Libcurl) : Libcurl :=
  match result with
  | .pause => { curl with sendPaused := true }
  | .bytes 0 => { curl with endOfUpload := true }
  | .bytes (_ + 1) => { curl with uploaded := curl.uploaded ++ bytes }

/-- An answer of `write_callback` is about receiving. -/
theorem afterWrite_eq (length : Nat) (result : CallbackReturn) (curl : Libcurl) :
    curl.afterWrite length result =
      { curl with
        recvPaused := (curl.afterWrite length result).recvPaused
        accepted := (curl.afterWrite length result).accepted } := by
  unfold afterWrite
  split
  · rfl
  · split <;> rfl

/-- An answer of the read function is about sending. -/
theorem afterRead_eq (bytes : List UInt8) (result : CallbackReturn) (curl : Libcurl) :
    curl.afterRead bytes result =
      { curl with
        sendPaused := (curl.afterRead bytes result).sendPaused
        uploaded := (curl.afterRead bytes result).uploaded
        endOfUpload := (curl.afterRead bytes result).endOfUpload } := by
  unfold afterRead
  split <;> rfl

end Libcurl

/-- What libcurl does to the handle while one of its functions runs: it calls
`header_callback`, the write function with a chunk of at most `n` bytes, or the
read function with a buffer, or it writes a message into `errorBuffer`. -/
inductive Callback
  | header (line : HeaderLine)
  | body (n : Nat)
  | upload (capacity : Nat)
  | errorText (text : List UInt8)

/-- One call of `curl_multi_perform`: the callbacks it has made, and its result
with the number of running handles, if it has returned. -/
structure Perform where
  callbacks : List Callback
  returns : Option (CURLMcode × Nat)

/-- One call of `curl_easy_pause`. -/
structure Pause where
  callbacks : List Callback
  returns : Option CURLcode

/-- A message of `curl_multi_info_read`. -/
structure CURLMsg where
  done : Bool
  result : CURLcode

structure Timespec where
  sec : Int
  nsec : Int

/-- What one iteration of `curlPerform` meets, in the order in which the loop asks
for it.  `messages` is the queue `curl_multi_info_read` empties, and `wait` the
result of `curl_multi_wait` with the number of descriptors that have events. -/
structure Iteration where
  interrupted : Bool
  perform : Perform
  messages : List CURLMsg
  interruptedAgain : Bool
  multiTimeout : Int
  wait : Option (CURLMcode × Int)
  clock : Timespec

/-- What a call of `curlPerform` meets. -/
structure Loop where
  started : Timespec
  iterations : List Iteration

/-! ## The state of a transfer -/

/-- The state in which `curl_multi_wait` is called. -/
structure Wait where
  ctrl : CurlData
  curl : Libcurl

structure Transfer where
  platform : Platform
  /-- The memory behind the literal `"Location"`. -/
  rodata : Nat → UInt8
  ctrl : CurlData
  curl : Libcurl
  /-- The calls of `curl_multi_wait`. -/
  waits : List Wait
  /-- The bytes of the response that `write_callback` has copied. -/
  copied : List UInt8
  /-- The ranges of the arrays being sent that `read_callback` has asked for. -/
  accesses : List ArrayAccess

namespace Transfer

/-- `write_callback` is offered a chunk of at most `n` bytes. -/
def receiveChunk (n : Nat) (t : Transfer) : Transfer :=
  let chunk := t.curl.offer n
  let moved := t.ctrl.writeCallback t.platform chunk
  { t with
    ctrl := moved.ctrl
    curl := t.curl.afterWrite chunk.length moved.result
    copied := t.copied ++ moved.bytes }

/-- The read function is given a buffer. -/
def sendChunk (capacity : Nat) (t : Transfer) : Transfer :=
  let moved := match t.curl.readFunction with
    | .readCallback => t.ctrl.readCallback t.platform capacity
    | .eofCallback => t.ctrl.eofCallback
  { t with
    ctrl := moved.ctrl
    curl := t.curl.afterRead moved.bytes moved.result
    accesses := t.accesses ++ moved.access.toList }

/-- One callback, of the function that is set. -/
def handle (callback : Callback) (t : Transfer) : Transfer :=
  match callback with
  | .header line => { t with ctrl := (t.ctrl.headerCallback line).1 }
  | .body n =>
      match t.curl.writeFunction with
      | .writeCallback => t.receiveChunk n
      | .skipReceiveCallback | .abortReceiveCallback => t
  | .upload capacity => t.sendChunk capacity
  | .errorText text => { t with ctrl := { t.ctrl with errorBuffer := text } }

/-- A callback is made for an attached handle only. -/
def invoke (t : Transfer) (callback : Callback) : Transfer :=
  if t.curl.attached then t.handle callback else t

def invokeAll (t : Transfer) (callbacks : List Callback) : Transfer := callbacks.foldl invoke t

def modify (f : CurlData → CurlData) (t : Transfer) : Transfer := { t with ctrl := f t.ctrl }

def noteWait (t : Transfer) : Transfer := { t with waits := t.waits ++ [⟨t.ctrl, t.curl⟩] }

end Transfer

/-! ## `curlPerform` -/

namespace CurlData

/-- The exits of the loop that do not end the transfer: the direction the caller
needs is paused, or, if the caller needs neither, the headers have arrived. -/
def bails (rodata : Nat → UInt8) (ctrl : CurlData) : Bool :=
  let state := ctrl.state
  ((state.needInput && state.recvPaused) ||
      (state.needOutput && (state.sendPaused || state.recvPaused && state.doneSending))) ||
    (!state.needOutput && !state.needInput &&
      (state.sendPaused || state.recvPaused ||
        (state.seenHeaderEnd && (!state.handleRedirect ||
          (ctrl.headers.hashmapGet ⟨0, ascii "Location", rodata⟩).isNone))))

/-- The time a loop may stay without activity. -/
def fullTimeout (ctrl : CurlData) : Int :=
  if ctrl.headerPairCount = 0 then ctrl.connTimeout else ctrl.readTimeout

/-- `checkResult`, with the messages in the queue. -/
def checkResult (ctrl : CurlData) : List CURLMsg → CurlData × Bool
  | [] => (ctrl, false)
  | msg :: remaining =>
      if msg.done = false then (ctrl, false)
      else
        match msg.result with
        | .abortedByCallback | .ok => if remaining = [] then (ctrl, true) else ctrl.checkResult remaining
        | code => (ctrl.handleEasyError code, true)

end CurlData

/-- The variables of `curlPerform`. -/
structure Timer where
  timeout : Int
  timestamp : Timespec
  fdEvents : Int

/-- What is left of a timeout: seconds and nanoseconds are accounted for
separately. -/
def subtractElapsed (timeout : Int) (timestamp current : Timespec) : Int :=
  let timeout := toInt32 (timeout - (current.sec - timestamp.sec) * 1000)
  let diff := toInt32 (current.nsec - timestamp.nsec)
  if diff < 0 then
    toInt32 (toInt32 (timeout + 1000) - (diff + 1000000000).tdiv 1000000)
  else timeout

/-- How an iteration ends. -/
inductive Flow
  | stop (result : Bool)
  | again (timer : Timer)

namespace Transfer

def curlMultiPerform (perform : Perform) : Program Transfer (CURLMcode × Nat) :=
  .call (fun t => t.invokeAll perform.callbacks) perform.returns

def curlEasyPause (pause : Pause) : Program Transfer CURLcode :=
  .call (fun t => { t with curl := t.curl.unpause }.invokeAll pause.callbacks) pause.returns

def checkResult (messages : List CURLMsg) : Program Transfer Bool := fun t =>
  let result := t.ctrl.checkResult messages
  ({ t with ctrl := result.1 }, some result.2)

/-- Changes the handle. -/
def update (f : CurlData → CurlData) : Program Transfer Unit := .update (modify f)

/-- Reads the handle. -/
def get {α : Type} (f : CurlData → α) : Program Transfer α := .read fun t => f t.ctrl

/-- The end of an iteration. -/
def account (it : Iteration) (timer : Timer) : Program Transfer Flow := do
  if timer.fdEvents ≠ 0 then
    let timeout ← get (·.fullTimeout)
    pure (.again { timer with timeout })
  else
    let timeout := subtractElapsed timer.timeout timer.timestamp it.clock
    if timeout ≤ 0 then
      update fun ctrl => ctrl.throwTimeout ctrl.headerPairCount
      pure (.stop true)
    else pure (.again { timer with timeout, timestamp := it.clock })

/-- The middle of an iteration, from `curl_multi_timeout` on. -/
def await (it : Iteration) (timer : Timer) : Program Transfer Flow := do
  let waitTime := if timer.timeout < it.multiTimeout then timer.timeout else it.multiTimeout
  if 0 < waitTime then
    Program.update noteWait
    let (waitResult, fdEvents) ← Program.call id it.wait
    if waitResult ≠ .ok then
      update (·.handleMultiError waitResult)
      pure (.stop true)
    else account it { timer with fdEvents }
  else account it timer

/-- One iteration. -/
def iterate (it : Iteration) (timer : Timer) : Program Transfer Flow := do
  if it.interrupted then pure (.stop false)
  else
    let (result, running) ← curlMultiPerform it.perform
    if result ≠ .ok then
      update (·.handleMultiError result)
      pure (.stop true)
    else
      let completed ← checkResult it.messages
      if completed then pure (.stop true)
      else
        let bails ← Program.read fun t => t.ctrl.bails t.rodata
        if bails then pure (.stop false)
        else if running = 0 then pure (.stop true)
        else if it.interruptedAgain then pure (.stop false)
        else await it timer

def iterateAll : List Iteration → Timer → Program Transfer Bool
  | [], _ => Program.inside
  | it :: iterations, timer => do
      match ← iterate it timer with
      | .stop result => pure result
      | .again timer => iterateAll iterations timer

/-- `curlPerform`. -/
def curlPerform (loop : Loop) : Program Transfer Bool := do
  let timeout ← get (·.fullTimeout)
  iterateAll loop.iterations ⟨timeout, loop.started, 0⟩

end Transfer

/-! ## Invariants of the loop -/

/-- Every callback of the loop is of the kind. -/
def Loop.All (ok : Callback → Prop) (loop : Loop) : Prop :=
  ∀ it ∈ loop.iterations, ∀ callback ∈ it.perform.callbacks, ok callback

/-- Every callback of the call is of the kind. -/
def Pause.All (ok : Callback → Prop) (pause : Pause) : Prop :=
  ∀ callback ∈ pause.callbacks, ok callback

namespace Transfer

/-- What it takes to be kept by `curlPerform`: errors that are reported do not matter to it,
the callbacks keep it, and so does a wait in a state from which the loop has not bailed out. -/
structure Steady (I : Transfer → Prop) (ok : Callback → Prop) : Prop where
  report : ∀ (t : Transfer) (ctrl : CurlData), t.ctrl.OnlyReports ctrl → I t → I { t with ctrl }
  header : ∀ (t : Transfer) (line : HeaderLine), ok (.header line) → I t →
    I { t with ctrl := (t.ctrl.headerCallback line).1 }
  receive : ∀ (t : Transfer) (n : Nat), ok (.body n) → t.curl.attached = true → I t →
    I (t.receiveChunk n)
  send : ∀ (t : Transfer) (capacity : Nat), ok (.upload capacity) → t.curl.attached = true →
    I t → I (t.sendChunk capacity)
  wait : ∀ t : Transfer, t.ctrl.bails t.rodata = false → I t → I t.noteWait

/-- **What it takes to be an invariant of `curlPerform`**: exceptions and headers
do not matter to it, the callbacks for the body keep it, and so does a wait in a
state from which the loop has not bailed out. -/
structure Invariant (I : Transfer → Prop) (ok : Callback → Prop) : Prop extends Steady I ok where
  io : ∀ (t : Transfer) (ctrl : CurlData), ctrl.io = t.ctrl.io → I t → I { t with ctrl }
  report := fun t ctrl hreports ht => io t ctrl hreports.io ht
  header := fun t line _ ht => io t _ (CurlData.io_headerCallback t.ctrl line) ht

theorem reports_checkResult (messages : List CURLMsg) :
    ∀ ctrl : CurlData, ctrl.OnlyReports (ctrl.checkResult messages).1 := by
  induction messages with
  | nil => exact fun ctrl => .refl ctrl
  | cons msg remaining ih =>
    intro ctrl
    unfold CurlData.checkResult
    split
    · exact .refl ctrl
    · split
      · split
        · exact .refl ctrl
        · exact ih ctrl
      · split
        · exact .refl ctrl
        · exact ih ctrl
      · exact ctrl.reports_handleEasyError _

@[simp] theorem io_checkResult (messages : List CURLMsg) (ctrl : CurlData) :
    (ctrl.checkResult messages).1.io = ctrl.io := (reports_checkResult messages ctrl).io

namespace Steady
open Program
variable {I : Transfer → Prop} {ok : Callback → Prop}

theorem handle (h : Steady I ok) {t : Transfer} {callback : Callback} (hok : ok callback)
    (hattached : t.curl.attached = true) (ht : I t) : I (t.handle callback) := by
  cases callback with
  | header line => exact h.header t line hok ht
  | body n =>
    unfold Transfer.handle
    dsimp only
    split
    · exact h.receive t n hok hattached ht
    · exact ht
    · exact ht
  | upload capacity => exact h.send t capacity hok hattached ht
  | errorText text => exact h.report t _ (.intro t.ctrl.env text rfl) ht

theorem invoke (h : Steady I ok) {t : Transfer} {callback : Callback} (hok : ok callback)
    (ht : I t) : I (t.invoke callback) := by
  unfold Transfer.invoke
  split
  · exact h.handle hok ‹_› ht
  · exact ht

theorem invokeAll (h : Steady I ok) : ∀ (callbacks : List Callback) {t : Transfer},
    (∀ callback ∈ callbacks, ok callback) → I t → I (t.invokeAll callbacks)
  | [], _, _, ht => ht
  | callback :: callbacks, _, hok, ht =>
      h.invokeAll callbacks (fun c hc => hok c (List.mem_cons_of_mem _ hc))
        (h.invoke (hok callback List.mem_cons_self) ht)

theorem update (h : Steady I ok) {f : CurlData → CurlData}
    (hf : ∀ ctrl : CurlData, ctrl.OnlyReports (f ctrl)) : Keeps I (Transfer.update f) :=
  Keeps.update fun t ht => h.report t _ (hf t.ctrl) ht

theorem curlMultiPerform (h : Steady I ok) {perform : Perform}
    (hok : ∀ callback ∈ perform.callbacks, ok callback) : Keeps I (curlMultiPerform perform) :=
  Keeps.call fun _ ht => h.invokeAll _ hok ht

theorem checkResult (h : Steady I ok) (messages : List CURLMsg) :
    Keeps I (checkResult messages) :=
  fun t ht => h.report t _ (reports_checkResult messages t.ctrl) ht

theorem account (h : Steady I ok) (it : Iteration) (timer : Timer) :
    Keeps I (account it timer) := by
  unfold Transfer.account
  refine Keeps.ite (fun _ => ?_) fun _ => ?_
  · exact Keeps.bind (Keeps.read _) fun _ => Keeps.pure _
  · refine Keeps.ite (fun _ => ?_) fun _ => Keeps.pure _
    exact Keeps.bind (h.update fun ctrl => ctrl.reports_throwTimeout _) fun _ => Keeps.pure _

/-- The wait itself is logged in a state from which the loop has not bailed out. -/
theorem await (h : Steady I ok) (it : Iteration) (timer : Timer) :
    Triple (fun t => t.ctrl.bails t.rodata = false ∧ I t) (await it timer) (fun _ => I) I := by
  unfold Transfer.await
  refine Triple.ite (fun _ => ?_) fun _ => ?_
  · refine Triple.bind (Q := fun _ => I) (Triple.update fun t ht => h.wait t ht.1 ht.2) fun _ => ?_
    refine Keeps.bind (Keeps.call fun _ ht => ht) fun answer => ?_
    refine Keeps.ite (fun _ => ?_) fun _ => h.account it _
    exact Keeps.bind (h.update fun ctrl => ctrl.reports_handleMultiError _) fun _ => Keeps.pure _
  · exact (h.account it timer).weaken (fun _ ht => ht.2) (fun _ _ => id) fun _ => id

theorem iterate (h : Steady I ok) {it : Iteration} (timer : Timer)
    (hok : ∀ callback ∈ it.perform.callbacks, ok callback) : Keeps I (iterate it timer) := by
  unfold Transfer.iterate
  refine Keeps.ite (fun _ => Keeps.pure _) fun _ => ?_
  refine Keeps.bind (h.curlMultiPerform hok) fun answer => ?_
  refine Keeps.ite (fun _ => ?_) fun _ => ?_
  · exact Keeps.bind (h.update fun ctrl => ctrl.reports_handleMultiError _) fun _ => Keeps.pure _
  refine Keeps.bind (h.checkResult it.messages) fun completed => ?_
  refine Keeps.ite (fun _ => Keeps.pure _) fun _ => ?_
  refine Triple.bind (Q := fun bails t => t.ctrl.bails t.rodata = bails ∧ I t)
    (Triple.read fun _ ht => ⟨rfl, ht⟩) fun bails => ?_
  refine Triple.ite (fun _ => Triple.pure fun _ ht => ht.2) fun hbails => ?_
  refine Triple.ite (fun _ => Triple.pure fun _ ht => ht.2) fun _ => ?_
  refine Triple.ite (fun _ => Triple.pure fun _ ht => ht.2) fun _ => ?_
  rw [Bool.not_eq_true] at hbails
  subst hbails
  exact h.await it timer

theorem iterateAll (h : Steady I ok) : ∀ (iterations : List Iteration) (timer : Timer),
    (∀ it ∈ iterations, ∀ callback ∈ it.perform.callbacks, ok callback) →
      Keeps I (iterateAll iterations timer)
  | [], _, _ => Keeps.inside
  | it :: iterations, timer, hok => by
      refine Keeps.bind (h.iterate timer (hok it List.mem_cons_self)) fun flow => ?_
      cases flow with
      | stop result => exact Keeps.pure result
      | again timer =>
        exact h.iterateAll iterations timer fun it hit => hok it (List.mem_cons_of_mem _ hit)

/-- **`curlPerform` keeps its invariants**, at every instant. -/
theorem curlPerform (h : Steady I ok) {loop : Loop} (hok : loop.All ok) :
    Keeps I (curlPerform loop) :=
  Keeps.bind (Keeps.read _) fun _ => h.iterateAll _ _ hok

end Steady
end Transfer
end Chttpc
