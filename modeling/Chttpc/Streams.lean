import Chttpc.CallRules

/-!
# The Java streams

`CurlInputStream` and `CurlOutputStream` check their arguments, look at the
interruption flag before and after the native call, and hand on what the call
returns.  An exception that the native method has left pending is thrown as soon
as the method returns, so what it returns is lost then.

The flag and `closed` are what a call meets (`StreamCall`).
-/

namespace Chttpc
open Program

/-- What a method of a stream throws: its own exceptions, or one of the native
method. -/
inductive Thrown
  | alreadyClosed
  | indexOutOfBounds
  | interruptedIo (bytesTransferred : Int)
  | native (e : Throwable)
  deriving DecidableEq, Repr

/-- `SocketTimeoutException`, as `Curl.throwException` chooses it. -/
def Throwable.isSocketTimeout : Throwable → Bool
  | .byCallback .socketConnectTimeout _ _ | .byCallback .socketReadTimeout _ _ => true
  | _ => false

/-- What a call of a stream meets: the field `closed`, and the interruption flag
before and after the native call. -/
structure StreamCall where
  closed : Bool
  interruptedBefore : Bool
  interruptedAfter : Bool

/-- The value of a method that returns an `int`. -/
def Returned.toInt : Returned → Int
  | .int n => n
  | _ => 0

instance (call : BodyCall) : Decidable call.InRange := by
  unfold BodyCall.InRange
  split <;> infer_instance

/-- What Java makes of a native call that has returned. -/
def StreamCall.outcome (s : StreamCall) (returned : Returned) (t : Transfer) : Except Thrown Int :=
  match t.ctrl.env.pending with
  | some e => .error (.native e)
  | none => if s.interruptedAfter then .error (.interruptedIo returned.toInt) else .ok returned.toInt

namespace Transfer

/-- A native method, as Java calls it. -/
def callNative (method : Program Transfer Returned) : Program Transfer (Except Thrown Int) := do
  let returned ← method
  get fun ctrl => match ctrl.env.pending with
    | some e => .error (.native e)
    | none => .ok returned.toInt

/-- The body of `doRead` and `doWrite`, with the native method between the two looks
at the flag. -/
def stream (s : StreamCall) (method : Program Transfer Returned) :
    Program Transfer (Except Thrown Int) := do
  if s.closed then pure (.error .alreadyClosed)
  else if s.interruptedBefore then pure (.error (.interruptedIo 0))
  else
    let result ← callNative method
    match result with
    | .error e => pure (.error e)
    | .ok n => if s.interruptedAfter then pure (.error (.interruptedIo n)) else pure (.ok n)

theorem callNative_eq {method : Program Transfer Returned} {t t' : Transfer} {returned : Returned}
    (h : method t = (t', some returned)) :
    callNative method t = (t', some (match t'.ctrl.env.pending with
      | some e => .error (.native e)
      | none => .ok returned.toInt)) := by
  rw [callNative, bind_some h]
  rfl

theorem stream_eq (s : StreamCall) (method : Program Transfer Returned) (t : Transfer) :
    stream s method t =
      if s.closed then (t, some (.error .alreadyClosed))
      else if s.interruptedBefore then (t, some (.error (.interruptedIo 0)))
      else
        match method t with
        | (t', none) => (t', none)
        | (t', some returned) => (t', some (s.outcome returned t')) := by
  unfold stream
  split
  · rfl
  split
  · rfl
  rcases hmethod : method t with ⟨t', _ | returned⟩
  · rw [bind_none (by rw [callNative, bind_none hmethod])]
  · rw [bind_some (callNative_eq hmethod)]
    unfold StreamCall.outcome
    dsimp only
    cases t'.ctrl.env.pending with
    | some e => rfl
    | none =>
      dsimp only
      split
      · rfl
      · rfl

/-- What the native method keeps. -/
theorem keeps_stream {I : Transfer → Prop} (s : StreamCall) {method : Program Transfer Returned}
    (h : Keeps I method) : Keeps I (stream s method) := by
  refine Keeps.ite (fun _ => Keeps.pure _) fun _ => Keeps.ite (fun _ => Keeps.pure _) fun _ => ?_
  refine Keeps.bind (Keeps.bind h fun _ => Keeps.read _) fun result => ?_
  cases result with
  | error e => exact Keeps.pure _
  | ok n => exact Keeps.ite (fun _ => Keeps.pure _) fun _ => Keeps.pure _

def doRead (s : StreamCall) (r : BodyCall) : Program Transfer (Except Thrown Int) :=
  stream s (read r)

/-- `CurlInputStream.read`, with an array or without. -/
def inputRead (s : StreamCall) (r : BodyCall) : Program Transfer (Except Thrown Int) :=
  if r.InRange then doRead s r else pure (.error .indexOutOfBounds)

theorem inputRead_eq {r : BodyCall} (hrange : r.InRange) (s : StreamCall) (t : Transfer) :
    inputRead s r t =
      if s.closed then (t, some (.error .alreadyClosed))
      else if s.interruptedBefore then (t, some (.error (.interruptedIo 0)))
      else
        match read r t with
        | (t', none) => (t', none)
        | (t', some returned) => (t', some (s.outcome returned t')) := by
  rw [inputRead, if_pos hrange]
  exact stream_eq s (read r) t

theorem inputRead_outOfRange {r : BodyCall} (hrange : ¬ r.InRange) (s : StreamCall)
    (t : Transfer) : inputRead s r t = (t, some (.error .indexOutOfBounds)) := by
  rw [inputRead, if_neg hrange]
  rfl

def doWrite (s : StreamCall) (w : BodyCall) : Program Transfer (Except Thrown Unit) := do
  let result ← stream s (write w)
  match result with
  | .error e => pure (.error e)
  | .ok _ => pure (.ok ())

/-- `CurlOutputStream.write`, with an array or without. -/
def outputWrite (s : StreamCall) (w : BodyCall) : Program Transfer (Except Thrown Unit) :=
  if w.InRange then doWrite s w else pure (.error .indexOutOfBounds)

end Transfer

/-! ## Timeouts -/

/-- A `SocketTimeoutException` is pending. -/
def JNIEnv.timedOut (env : JNIEnv) : Bool := env.pending.any (·.isSocketTimeout)

theorem JNIEnv.timedOut_throw (env : JNIEnv) {e : Throwable} (h : e.isSocketTimeout = false) :
    (env.throw e).timedOut = env.timedOut := by
  rcases env with ⟨_ | pending⟩
  · exact h
  · rfl

namespace CurlData
variable (ctrl : CurlData)

theorem timedOut_throwException {e : ErrorType} (m : Option ErrorText) (arg : Int)
    (h : (Throwable.byCallback e m arg).isSocketTimeout = false) :
    (ctrl.throwException e m arg).env.timedOut = ctrl.env.timedOut :=
  ctrl.env.timedOut_throw h

@[simp] theorem timedOut_oomThrow : ctrl.oomThrow.env.timedOut = ctrl.env.timedOut :=
  ctrl.timedOut_throwException _ _ rfl

@[simp] theorem timedOut_throwNew (e : ErrorText) :
    (ctrl.throwNew e).env.timedOut = ctrl.env.timedOut :=
  ctrl.env.timedOut_throw rfl

@[simp] theorem env_chompErrorBuffer : ctrl.chompErrorBuffer.env = ctrl.env := by
  unfold chompErrorBuffer
  split <;> rfl

@[simp] theorem timedOut_handleMultiError (code : CURLMcode) :
    (ctrl.handleMultiError code).env.timedOut = ctrl.env.timedOut := by
  unfold handleMultiError
  dsimp only
  split
  · rw [env_chompErrorBuffer]
  · split
    · rw [timedOut_oomThrow, env_chompErrorBuffer]
    · rw [timedOut_throwNew, env_chompErrorBuffer]

theorem timedOut_throwEasyError (code : CURLcode) (e : ErrorText) :
    (ctrl.throwEasyError code e).env.timedOut = ctrl.env.timedOut := by
  cases code with
  | outOfMemory => exact ctrl.timedOut_oomThrow
  | ok | abortedByCallback | writeError | other _ => exact ctrl.timedOut_throwNew e
  | _ => exact ctrl.timedOut_throwException _ _ rfl

@[simp] theorem timedOut_handleEasyError (code : CURLcode) :
    (ctrl.handleEasyError code).env.timedOut = ctrl.env.timedOut := by
  unfold handleEasyError
  split
  · rfl
  · dsimp only
    split
    · rw [env_chompErrorBuffer]
    · rw [timedOut_throwEasyError, env_chompErrorBuffer]

@[simp] theorem timedOut_checkResult (messages : List CURLMsg) :
    (ctrl.checkResult messages).1.env.timedOut = ctrl.env.timedOut := by
  induction messages with
  | nil => rfl
  | cons msg remaining ih =>
    unfold checkResult
    split
    · rfl
    · split
      · split
        · rfl
        · exact ih
      · split
        · rfl
        · exact ih
      · exact ctrl.timedOut_handleEasyError _

theorem env_beginResponse : ctrl.beginResponse.env = ctrl.env := by
  unfold beginResponse
  split <;> rfl

theorem env_noteLength (n : Nat) : (ctrl.noteLength n).env = ctrl.env := by
  rw [noteLength_eq]

theorem env_storeHeader (line : HeaderLine) (name : CString) (block : Nat) :
    (ctrl.storeHeader line name block).1.env = ctrl.env := by
  rw [storeHeader_eq]

theorem timedOut_appendPair (line : HeaderLine) (statusLine : Bool) (old block : Nat)
    (name : CString) :
    (ctrl.appendPair line statusLine old block name).1.env.timedOut = ctrl.env.timedOut := by
  have hcapacity : (ctrl.headersEnsureCapacity line.reallocOk
      (ctrl.headerPairCount + 1)).1.env.timedOut = ctrl.env.timedOut := by
    unfold headersEnsureCapacity
    split
    · rfl
    · dsimp only
      split
      · rfl
      · exact ctrl.timedOut_oomThrow
  unfold appendPair
  dsimp only
  split
  · exact hcapacity
  · split <;> exact hcapacity

@[simp] theorem timedOut_headerCallback (line : HeaderLine) :
    (ctrl.headerCallback line).1.env.timedOut = ctrl.env.timedOut := by
  unfold headerCallback
  split
  · split
    · exact (timedOut_appendPair _ line true _ _ _).trans
        (congrArg JNIEnv.timedOut ctrl.env_beginResponse)
    · rfl
  · dsimp only
    rw [timedOut_appendPair, env_noteLength, env_noteLength, env_storeHeader]
    rfl

theorem timedOut_throwOutOfBounds : ctrl.throwOutOfBounds.env.timedOut = ctrl.env.timedOut :=
  ctrl.env.timedOut_throw rfl

theorem timedOut_arrayWrite (buf ptr : List UInt8) (count : Int) :
    (ctrl.arrayWrite buf ptr count).1.env.timedOut = ctrl.env.timedOut := by
  unfold arrayWrite
  split
  · rfl
  · exact ctrl.timedOut_throwOutOfBounds

theorem timedOut_takeReceived (platform : Platform) (ptr : List UInt8) (pendingReal : Int) :
    (ctrl.takeReceived platform ptr pendingReal).ctrl.env.timedOut = ctrl.env.timedOut := by
  unfold takeReceived
  split
  · exact ctrl.timedOut_arrayWrite _ _ _
  · rfl

@[simp] theorem timedOut_writeCallback (platform : Platform) (chunk : List UInt8) :
    (ctrl.writeCallback platform chunk).ctrl.env.timedOut = ctrl.env.timedOut := by
  unfold writeCallback
  split
  · rfl
  · dsimp only
    split
    · rfl
    · split
      · exact ctrl.timedOut_takeReceived _ _ _
      · exact ctrl.timedOut_takeReceived _ _ _

theorem timedOut_arrayRead (buf : List UInt8) (count : Int) :
    (ctrl.arrayRead buf count).1.env.timedOut = ctrl.env.timedOut := by
  unfold arrayRead
  split
  · rfl
  · exact ctrl.timedOut_throwOutOfBounds

theorem timedOut_placeBytes (capacity : Nat) :
    (ctrl.placeBytes capacity).ctrl.env.timedOut = ctrl.env.timedOut := by
  unfold placeBytes
  split
  · exact ctrl.timedOut_arrayRead _ _
  · rfl

@[simp] theorem timedOut_readCallback (platform : Platform) (capacity : Nat) :
    (ctrl.readCallback platform capacity).ctrl.env.timedOut = ctrl.env.timedOut := by
  unfold readCallback
  split
  · rfl
  · split
    · rfl
    · dsimp only
      rw [countUploaded_eq]
      exact ctrl.timedOut_placeBytes capacity

end CurlData
end Chttpc
