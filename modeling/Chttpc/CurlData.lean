import Chttpc.HeaderKey

/-!
# The native handle: `struct curl_data`

One record per `CurlHttp`, passed as `userdata` to every callback and as the
`curlPtr` of every native entry point.  The bits of `ctrl->state` are a record
of booleans (`StateBits`); counters of fixed width are naturals or integers that
are reduced where the code stores them.  A Java byte array is the list of its
bytes: during a native call only that call touches it.

`ctrl->env` is the JNI environment of the calling thread.  What the native code
can observe of it is whether an exception is pending, and that is all it keeps.

The blocks `header_callback` allocates are kept in the order of their
allocation, and the pointer to a block is its number.  A block holds one
`struct curl_hdr`, a value with its `ref` pointer, followed by the text of a
name; the pointer to that name has address `block + 1`.
-/

namespace Chttpc

/-- The error numbers handed to `Curl.throwException`. -/
inductive ErrorType
  | useSynchronization | dnsFailure | notEvenHttp | socketConnectRefused
  | socketConnectTimeout | socketReadTimeout | retryImpossible | badUrl
  | interfaceBindingFailed | sslFail | socketMystery | oom | protocol | illegalState
  | interrupted | closed
  deriving DecidableEq, Repr

/-- The results of the easy interface that the code tells apart. -/
inductive CURLcode
  | ok | abortedByCallback | writeError | recvError | sendError | couldntConnect
  | weirdServerReply | sslConnectError | sslShutdownFailed | urlMalformat
  | unsupportedProtocol | couldntResolveHost | couldntResolveProxy | interfaceFailed
  | sendFailRewind | http2 | http2Stream | outOfMemory
  | other (code : Nat)
  deriving DecidableEq, Repr

/-- The results of the multi interface that the code tells apart. -/
inductive CURLMcode
  | ok | outOfMemory
  | other (code : Int)
  deriving DecidableEq, Repr

/-- The text of an exception, by where the code takes it from. -/
inductive ErrorText
  | literal (text : List UInt8)
  | errorBuffer (text : List UInt8)
  | easyStrerror (code : CURLcode)
  | multiStrerror (code : CURLMcode)
  deriving DecidableEq, Repr

/-- An exception raised through JNI. -/
inductive Throwable
  | byCallback (errType : ErrorType) (message : Option ErrorText) (arg : Int)
  | ioException (message : ErrorText)
  | arrayIndexOutOfBounds
  | negativeArraySize
  | outOfMemoryError
  deriving DecidableEq, Repr

/-- The JNI environment: the pending exception. -/
structure JNIEnv where
  pending : Option Throwable
  deriving DecidableEq, Repr

/-- Raises an exception; one that is pending already stays. -/
def JNIEnv.throw (env : JNIEnv) (e : Throwable) : JNIEnv :=
  match env.pending with
  | some _ => env
  | none => { pending := some e }

/-- What `throwThreadingException` raises. -/
def threadingException : Throwable := .byCallback .useSynchronization none 0

/-- The environment without an exception of any other kind. -/
def JNIEnv.threading (env : JNIEnv) : JNIEnv :=
  if env.pending = some threadingException then env else ⟨none⟩

theorem JNIEnv.pending_throw (env : JNIEnv) (e : Throwable) : (env.throw e).pending ≠ none := by
  rcases env with ⟨_ | pending⟩ <;> nofun

theorem JNIEnv.threading_throw (env : JNIEnv) {e : Throwable} (h : e ≠ threadingException) :
    (env.throw e).threading = env.threading := by
  rcases env with ⟨_ | pending⟩
  · simp [JNIEnv.throw, JNIEnv.threading, h]
  · rfl

/-- The bits of `ctrl->state`. -/
structure StateBits where
  attached : Bool
  handleRedirect : Bool
  doInput : Bool
  recvPaused : Bool
  doOutput : Bool
  sendPaused : Bool
  needInput : Bool
  needOutput : Bool
  doneSending : Bool
  seenHeaderEnd : Bool
  deriving DecidableEq, Repr

/-- `state = 0`. -/
def StateBits.zero : StateBits :=
  ⟨false, false, false, false, false, false, false, false, false, false⟩

/-- `struct curl_hdr`.  `ref` is indeterminate in the block of a status line. -/
structure CurlHdr where
  ref : Option Nat
  header : List UInt8
  deriving DecidableEq, Repr

/-- What an element of `headerPairs` points at. -/
inductive HeaderPtr
  | value (block : Nat)
  | key (name : CString)

/-- `struct curl_data`, with the blocks allocated for headers and the pointers
handed to `free` by `releaseHeaders`. -/
structure CurlData where
  outHeaders : List (List UInt8)
  env : JNIEnv
  bufferForReceiving : Option (List UInt8)
  bufferForSending : Option (List UInt8)
  headers : Hashmap CString Nat
  /-- The flat array of values (even) and names (odd); `none` is indeterminate. -/
  headerPairs : Nat → Option HeaderPtr
  headerBufSize : Nat
  headerPairCount : Nat
  maxHeaderLength : Nat
  uploadedCount : Nat
  uploadGoal : Nat
  state : StateBits
  readOffset : Int
  countToRead : Int
  readOverflow : Int
  writeOffset : Int
  countToWrite : Int
  connTimeout : Int
  readTimeout : Int
  busy : Bool
  outHeaderCount : Nat
  errorBuffer : List UInt8
  blocks : List CurlHdr
  freed : List (Option HeaderPtr)

/-- Conversion to `int`. -/
def toInt32 (n : Int) : Int := n.bmod (2 ^ 32)

/-- Conversion to `uint16_t`. -/
def toUInt16 (n : Nat) : Nat := n % 2 ^ 16

theorem toInt32_of_nat {n : Nat} (h : n < 2 ^ 31) : toInt32 n = n := by
  unfold toInt32
  rw [Int.bmod_def]
  omega

def HEADER_BUF_SIZE_DEFAULT : Nat := 20

/-- `Java_net_sf_chttpc_Curl_nativeCreate`, with its allocations succeeding: the
zeroed handle with its header array and header map. -/
def nativeCreate : CurlData where
  outHeaders := []
  env := ⟨none⟩
  bufferForReceiving := none
  bufferForSending := none
  -- wider or not, a `size_t` has room for the product
  headers := Hashmap.hashmapCreate 32 HEADER_BUF_SIZE_DEFAULT hashCalc hashKeyCompare
  headerPairs := fun _ => none
  headerBufSize := HEADER_BUF_SIZE_DEFAULT
  headerPairCount := 0
  maxHeaderLength := 0
  uploadedCount := 0
  uploadGoal := 0
  state := .zero
  readOffset := 0
  countToRead := 0
  readOverflow := 0
  writeOffset := 0
  countToWrite := 0
  connTimeout := 0
  readTimeout := 0
  busy := false
  outHeaderCount := 0
  errorBuffer := []
  blocks := []
  freed := []

namespace CurlData

/-- `CallStaticVoidMethod(wrapper, threadingCb, message, errType, arg)`. -/
def throwException (errType : ErrorType) (message : Option ErrorText) (arg : Int)
    (ctrl : CurlData) : CurlData :=
  { ctrl with env := ctrl.env.throw (.byCallback errType message arg) }

def throwThreadingException (ctrl : CurlData) : CurlData :=
  ctrl.throwException .useSynchronization none 0

def oomThrow (ctrl : CurlData) : CurlData := ctrl.throwException .oom none 0

def throwTimeout (transferred : Nat) (ctrl : CurlData) : CurlData :=
  ctrl.throwException
    (if 0 < transferred then .socketReadTimeout else .socketConnectTimeout) none 0

def throwOther (error : ErrorText) (errType : ErrorType) (ctrl : CurlData) : CurlData :=
  ctrl.throwException errType (some error) 0

/-- `ThrowNew(env, ioException, errorDesc)`. -/
def throwNew (errorDesc : ErrorText) (ctrl : CurlData) : CurlData :=
  { ctrl with env := ctrl.env.throw (.ioException errorDesc) }

/-- Cuts one newline off the end of the error buffer. -/
def chompErrorBuffer (ctrl : CurlData) : CurlData :=
  if ctrl.errorBuffer.getLast? = some 10 then
    { ctrl with errorBuffer := ctrl.errorBuffer.dropLast }
  else ctrl

def handleMultiError (lastError : CURLMcode) (ctrl : CurlData) : CurlData :=
  let ctrl' := ctrl.chompErrorBuffer
  let errorDesc :=
    if ctrl.errorBuffer = [] then ErrorText.multiStrerror lastError
    else .errorBuffer ctrl'.errorBuffer
  if ctrl'.env.pending.isSome then ctrl'
  else if lastError = .outOfMemory then ctrl'.oomThrow
  else ctrl'.throwNew errorDesc

/-- The exception `handleEasyError` raises for a result. -/
def throwEasyError (lastError : CURLcode) (errorDesc : ErrorText) (ctrl : CurlData) : CurlData :=
  match lastError with
  | .recvError | .sendError => ctrl.throwOther errorDesc .socketMystery
  | .couldntConnect => ctrl.throwOther errorDesc .socketConnectRefused
  | .weirdServerReply => ctrl.throwOther errorDesc .notEvenHttp
  | .sslConnectError | .sslShutdownFailed => ctrl.throwOther errorDesc .sslFail
  | .urlMalformat | .unsupportedProtocol => ctrl.throwOther errorDesc .badUrl
  | .couldntResolveHost | .couldntResolveProxy => ctrl.throwOther errorDesc .dnsFailure
  | .interfaceFailed => ctrl.throwOther errorDesc .interfaceBindingFailed
  | .sendFailRewind => ctrl.throwOther errorDesc .retryImpossible
  | .http2 | .http2Stream => ctrl.throwOther errorDesc .protocol
  | .outOfMemory => ctrl.oomThrow
  | _ => ctrl.throwNew errorDesc

def handleEasyError (lastError : CURLcode) (ctrl : CurlData) : CurlData :=
  if lastError = .writeError ∧ ctrl.state.doInput = false then
    -- the caller set doInput to false, so the receive was aborted on purpose
    ctrl
  else
    let ctrl' := ctrl.chompErrorBuffer
    let errorDesc :=
      if ctrl.errorBuffer = [] then ErrorText.easyStrerror lastError
      else .errorBuffer ctrl'.errorBuffer
    if ctrl'.env.pending.isSome then ctrl' else ctrl'.throwEasyError lastError errorDesc

/-- The elements of `headerPairs` that `releaseHeaders` hands to `free`: its index
runs over the flat array, in steps of two, below the count of pairs. -/
def releasedSlots (ctrl : CurlData) : List (Option HeaderPtr) :=
  (List.range ((ctrl.headerPairCount + 1) / 2)).map fun i => ctrl.headerPairs (2 * i)

def releaseHeaders (ctrl : CurlData) : CurlData :=
  { ctrl with freed := ctrl.freed ++ ctrl.releasedSlots, headerPairCount := 0 }

/-- `headers_ensure_capacity`; the result says whether it failed. -/
def headersEnsureCapacity (reallocOk : Bool) (newItemCapacity : Nat) (ctrl : CurlData) :
    CurlData × Bool :=
  if newItemCapacity ≤ ctrl.headerBufSize then (ctrl, false)
  else
    let targetItemCapacity := 3 * newItemCapacity / 2
    if reallocOk then ({ ctrl with headerBufSize := targetItemCapacity % 2 ^ 32 }, false)
    else (ctrl.oomThrow, true)

end CurlData
end Chttpc
