import Chttpc.HeaderMap
import Chttpc.Streams
import Chttpc.UrlUpdate

/-!
# `CurlConnection`

The connection that an application holds: the flag `connected`, the response code and
what else it remembers of a response, its two streams, and the settings of
`URLConnection` that the native handle reads later.  Most accessors connect first, and
`connect` calls `curl.configure` on the handle; `reset` closes the streams and calls
`curl.reset`.

A method is a program that may throw and that may still be inside a native call
(`Java`).  `invoked`, `unfinished` and `events` are a ledger: they are written and never read.

What is handed to libcurl and read by nobody else is left out: the method, the proxy and
what `Config` answers.  The setters of the first two keep their guard.  `getURL`,
`getRequestProperties`, `usingProxy`, `toString`, `getHeaderFieldInt` and
`getHeaderFieldDate` are made of what is here and change nothing.
-/

namespace Chttpc
open Program

/-- `CurlInputStream`, by the field that is its own. -/
structure InputStream where
  closed : Bool

/-- `CurlOutputStream`, by the field that is its own. -/
structure OutputStream where
  closed : Bool

/-- Fields of `URLConnection` and `HttpURLConnection` that are arguments of `configure`. -/
structure Settings where
  doInput : Bool
  doOutput : Bool
  instanceFollowRedirects : Bool
  fixedContentLength : Int
  fixedContentLengthLong : Int
  chunkLength : Int
  readTimeout : Int
  connectTimeout : Int
  deriving DecidableEq, Repr

/-- The settings of a new connection. -/
def Settings.default : Settings := ⟨true, false, true, -1, -1, -1, 0, 0⟩

/-- The calls on the handle that the ledger keeps. -/
inductive Invocation
  | configure | reset
  deriving DecidableEq, Repr

/-- What happens to the list of request headers: `curl.configure` is called, which hands it to
libcurl, a native method is called that changes it, or one in which libcurl performs, on the
handle as it is then. -/
inductive HandleEvent
  | configure
  | edit
  | perform (t : Transfer)

structure CurlConnection {equals : JString → JString → Bool} (H : HdrMap equals) where
  /-- `Build.VERSION.SDK_INT`. -/
  sdkInt : Nat
  /-- `curl.url`. -/
  url : MutableUrl
  /-- The handle behind `curl.curlPtr`. -/
  native : Transfer
  settings : Settings
  connected : Bool
  responseCode : Int
  responseMessage : Option JString
  headerMap : Option H.Map
  inputStream : Option InputStream
  outputStream : Option OutputStream
  /-- The calls of `curl.configure` and `curl.reset`, in their order. -/
  invoked : List Invocation
  /-- `curl.configure` has been called and the connection has not become connected since,
  or `reset()` has been called and has not got to `curl.reset`. -/
  unfinished : Bool
  /-- What has happened to the list of request headers, in its order. -/
  events : List HandleEvent

/-- What a method of the connection throws. -/
inductive ConnectionThrown
  | protocolException (message : String)
  | illegalStateException (message : String)
  | illegalArgumentException
  | interruptedIoException
  | url (e : UrlException)
  /-- `"Server returned HTTP response code: … for URL: …"`. -/
  | serverReturned (responseCode : Int) (url : Option JString)
  /-- What a getter or a callback of the application throws. -/
  | application
  /-- What the header map throws. -/
  | headerMap
  | configure (e : ConfigureThrown)
  | stream (e : Thrown)
  | native (e : Throwable)
  deriving DecidableEq, Repr

/-- A method of the connection. -/
abbrev Java {equals : JString → JString → Bool} (H : HdrMap equals) : Type → Type :=
  Throws ConnectionThrown (CurlConnection H)

/-- The exceptions of `Curl.throwException` and of the native code that are an
`IOException`. -/
def Throwable.isIOException : Throwable → Bool
  | .byCallback errType _ _ =>
      match errType with
      | .useSynchronization | .oom | .illegalState => false
      | _ => true
  | .ioException _ => true
  | .arrayIndexOutOfBounds | .negativeArraySize | .outOfMemoryError => false

def Thrown.isIOException : Thrown → Bool
  | .alreadyClosed | .interruptedIo _ => true
  | .indexOutOfBounds => false
  | .native e => e.isIOException

/-- What a call that connects meets: the interruption flag at the two looks of `connect`
at it, whether an argument of `curl.configure` can be computed, the native call, and the
response code libcurl has then. -/
structure Connecting where
  interruptedBefore : Bool
  argumentThrows : Bool
  configure : Configure
  interruptedAfter : Bool
  responseCode : Int

/-- What closing an output stream meets. -/
structure Closing where
  interruptedBefore : Bool
  close : Close
  interruptedAfter : Bool

/-- `getFixedLength`. -/
def Settings.getFixedLength (sdkInt : Nat) (settings : Settings) : Int :=
  if 19 ≤ sdkInt then max settings.fixedContentLength settings.fixedContentLengthLong
  else settings.fixedContentLength

/-- The arguments of `curl.configure` that are settings. -/
def Settings.toConfigure (sdkInt : Nat) (c : Configure) (settings : Settings) : Configure :=
  { c with
    fixedLength := settings.getFixedLength sdkInt
    readTimeout := settings.readTimeout
    connTimeout := settings.connectTimeout
    followRedirects := settings.instanceFollowRedirects
    doInput := settings.doInput
    doOutput := settings.doOutput }

namespace CurlConnection
variable {equals : JString → JString → Bool} {H : HdrMap equals}

/-- `CurlURLStreamHandler.openConnection`, up to the first setters. -/
def new (sdkInt : Nat) (native : Transfer) : CurlConnection H where
  sdkInt
  url := ⟨[], 0⟩
  native
  settings := .default
  connected := false
  responseCode := -1
  responseMessage := none
  headerMap := none
  inputStream := none
  outputStream := none
  invoked := []
  unfinished := false
  events := []

/-- A program of the handle. -/
def onHandle {α : Type} (m : Program Transfer α) : Program (CurlConnection H) α := fun conn =>
  ({ conn with native := (m conn.native).1 }, (m conn.native).2)

/-- A native method, as Java calls it: an exception it has left pending is thrown. -/
def callNative (method : Program Transfer Returned) : Java H Returned := do
  let returned ← Throws.lift (onHandle method)
  let pending ← Throws.read (·.native.ctrl.env.pending)
  match pending with
  | some e => throw (.native e)
  | none => pure returned

/-- A native method that changes the list of request headers. -/
def editHeaders (method : Program Transfer Returned) : Java H Unit := do
  Throws.update fun conn => { conn with events := conn.events ++ [.edit] }
  let _ ← callNative method
  pure ()

def assertConnected : Java H Unit := do
  let connected ← Throws.read (·.connected)
  if connected then pure ()
  else throw (.illegalStateException "Can not get headers before establishing connection")

def assertNotConnected : Java H Unit := do
  let connected ← Throws.read (·.connected)
  if connected then throw (.illegalStateException "Already connected")
  else pure ()

/-! ## Connecting -/

/-- The ledger, when `curl.configure` is called. -/
def configuring (conn : CurlConnection H) : CurlConnection H :=
  { conn with
    invoked := conn.invoked ++ [.configure], unfinished := true
    events := conn.events ++ [.configure] }

/-- `curl.configure`. -/
def configureHandle (c : Configure) : Java H Unit := do
  Throws.update configuring
  let url ← Throws.read (·.url)
  let result ← Throws.lift (onHandle (Transfer.configure c url))
  match result with
  | .error e => throw (.configure e)
  | .ok url => Throws.update fun conn => { conn with url }

def configure (e : Connecting) : Java H Unit := do
  let sdkInt ← Throws.read (·.sdkInt)
  let settings ← Throws.read (·.settings)
  if e.argumentThrows then throw .application
  else configureHandle (settings.toConfigure sdkInt e.configure)

/-- `getResponseCode`, once connected. -/
def fetchResponseCode (code : Int) : Java H Int := do
  let responseCode ← Throws.read (·.responseCode)
  if 0 < responseCode ∧ responseCode ≠ 100 then pure responseCode
  else
    let returned ← callNative (Transfer.intHeader code 0 none 0 fun _ => 0)
    Throws.update fun conn => { conn with responseCode := toInt32 returned.toInt }
    Throws.read (·.responseCode)

/-- `connect`, of a connection that is not connected. -/
def establish (e : Connecting) : Java H Unit := do
  if e.interruptedBefore then throw .interruptedIoException
  else
    configure e
    if e.interruptedAfter then throw .interruptedIoException
    else
      Throws.update fun conn => { conn with connected := true, unfinished := false }
      -- `connect` comes back at once when `getResponseCode` calls it
      let _ ← fetchResponseCode e.responseCode
      pure ()

def connect (e : Connecting) : Java H Unit := do
  let connected ← Throws.read (·.connected)
  if connected then pure () else establish e

def getResponseCode (e : Connecting) (code : Int) : Java H Int := do
  connect e
  fetchResponseCode code

def createInputStream (e : Connecting) : Java H Unit := do
  connect e
  Throws.update fun conn => { conn with inputStream := some (conn.inputStream.getD ⟨false⟩) }

/-- `getContent()`. -/
def getContent (e : Connecting) : Java H (Option InputStream) := do
  createInputStream e
  Throws.read (·.inputStream)

/-- `getContent(Class[])`; `assignable` says which of the classes are assignable from
`InputStream`. -/
def getContentOf (assignable : List Bool) (e : Connecting) : Java H (Option InputStream) := do
  if assignable.any id then getContent e else pure none

def getInputStream (e : Connecting) : Java H (Option InputStream) := do
  let settings ← Throws.read (·.settings)
  if settings.doInput = false then
    throw (.protocolException "getInputStream can not be called when doInput = false")
  else
    createInputStream e
    let responseCode ← Throws.read (·.responseCode)
    if 400 ≤ responseCode then
      let url ← Throws.read (·.url)
      throw (.serverReturned responseCode url.toString)
    else Throws.read (·.inputStream)

def getErrorStream : Java H (Option InputStream) := do
  let connected ← Throws.read (·.connected)
  let responseCode ← Throws.read (·.responseCode)
  if connected = false ∨ responseCode < 400 then pure none
  else
    Throws.update fun conn => { conn with inputStream := some (conn.inputStream.getD ⟨false⟩) }
    Throws.read (·.inputStream)

def getOutputStream (e : Connecting) : Java H (Option OutputStream) := do
  let settings ← Throws.read (·.settings)
  if settings.doOutput = false then
    throw (.protocolException "getOutputStream can not be called when doOutput = false")
  else
    connect e
    Throws.update fun conn => { conn with outputStream := some (conn.outputStream.getD ⟨false⟩) }
    Throws.read (·.outputStream)

/-! ## The response -/

/-- A native method that returns a string. -/
def Returned.str : Returned → Option JString
  | .string str => str
  | _ => none

/-- A native method that returns an array of strings. -/
def Returned.elements : Returned → Option (List (Option JString))
  | .array elements => elements
  | _ => none

/-- `getHeaderField(int)`. -/
def getHeaderFieldAt (stringOk : Bool) (n : Int) : Java H (Option JString) := do
  assertConnected
  if n < 0 then throw .illegalArgumentException
  else
    let returned ← callNative (Transfer.header stringOk none n fun _ => 0)
    pure (Returned.str returned)

def getHeaderFieldKey (stringOk : Bool) (n : Int) : Java H (Option JString) := do
  assertConnected
  if n < 0 then throw .illegalArgumentException
  else if n = 0 then pure none
  else
    let returned ← callNative (Transfer.header stringOk none (-n) fun _ => 0)
    pure (Returned.str returned)

/-- `getHeaderField(String)`. -/
def getHeaderField (stringOk : Bool) (name : JString) (beyond : Nat → UInt8) :
    Java H (Option JString) := do
  assertConnected
  let returned ← callNative (Transfer.header stringOk (some name) name.length beyond)
  pure (Returned.str returned)

def getHeaderFieldLong (name : JString) (default : Int) (beyond : Nat → UInt8) : Java H Int := do
  assertConnected
  let returned ← callNative (Transfer.intHeader 0 default (some name) name.length beyond)
  pure returned.toInt

/-- The map that is kept. -/
def HeaderFields.kept : HeaderFields H → Option H.Map
  | .emptyMap => none
  | .headerMap m => some m

def getHeaderFields (alloc : ArrayAlloc) : Java H (HeaderFields H) := do
  assertConnected
  let headerMap ← Throws.read (·.headerMap)
  match headerMap with
  | some m => pure (.headerMap m)
  | none =>
      let returned ← callNative (Transfer.getHeaders true alloc)
      match Chttpc.getHeaderFields H none (Returned.elements returned) with
      | none => throw .headerMap
      | some fields =>
          Throws.update fun conn => { conn with headerMap := HeaderFields.kept fields }
          pure fields

/-- `String.indexOf(int, int)`. -/
def indexOf (ch : UInt16) (start : Nat) (str : JString) : Option Nat :=
  ((str.drop start).findIdx? (· == ch)).map (start + ·)

/-- The first space of a status line. -/
def codePos (statusLine : JString) : Option Nat :=
  if (ascii "HTTP/").map (·.toUInt16) <+: statusLine then indexOf 32 0 statusLine else none

/-- What lies behind the second space of a status line. -/
def reasonPhrase (codePos : Nat) (statusLine : JString) : Option JString :=
  match indexOf 32 (codePos + 1) statusLine with
  | none => none
  | some phrasePos =>
      if 0 < phrasePos ∧ phrasePos < statusLine.length then
        some (statusLine.drop (phrasePos + 1))
      else none

/-- `getResponseMessage`, once connected. -/
def fetchResponseMessage (stringOk : Bool) : Java H (Option JString) := do
  let statusLine ← getHeaderFieldAt stringOk 0
  match statusLine with
  | none => pure none
  | some statusLine =>
      match codePos statusLine with
      | none => pure none
      | some pos =>
          Throws.update fun conn =>
            { conn with
              responseMessage := (reasonPhrase pos statusLine).or conn.responseMessage }
          Throws.read (·.responseMessage)

def getResponseMessage (e : Connecting) (stringOk : Bool) : Java H (Option JString) := do
  let responseMessage ← Throws.read (·.responseMessage)
  let responseCode ← Throws.read (·.responseCode)
  if responseMessage.isSome ∧ responseCode ≠ 100 then pure responseMessage
  else
    connect e
    fetchResponseMessage stringOk

/-! ## Streams and `reset` -/

/-- `CurlOutputStream.close`, of an open stream. -/
def closeOpen (c : Closing) : Program Transfer (Except Thrown Int) :=
  Transfer.stream ⟨false, c.interruptedBefore, c.interruptedAfter⟩ (Transfer.closeOutput c.close)

/-- What `close` throws, unless it is an `IOException`. -/
def uncaught (result : Except Thrown Int) : Option Thrown :=
  match result with
  | .error e => if e.isIOException then none else some e
  | .ok _ => none

/-- `output.close()`, where an `IOException` is caught. -/
def closeQuietly (c : Closing) (output : OutputStream) : Java H Unit := do
  if output.closed then pure ()
  else
    let result ← Throws.lift (onHandle (closeOpen c))
    match uncaught result with
    | some e => throw (.stream e)
    | none => pure ()

/-- `curl.reset`. -/
def resetHandle : Java H Unit := do
  Throws.update fun conn => { conn with invoked := conn.invoked ++ [.reset], unfinished := false }
  let _ ← callNative Transfer.reset
  pure ()

def reset (c : Closing) : Java H Unit := do
  Throws.update fun conn => { conn with connected := false, responseCode := -1, unfinished := true }
  -- `close` of an input stream sets its flag, and nobody asks for the stream again
  Throws.update fun conn => { conn with inputStream := none }
  let outputStream ← Throws.read (·.outputStream)
  Throws.update fun conn => { conn with outputStream := none }
  match outputStream with
  | none => resetHandle
  | some output =>
      closeQuietly c output
      resetHandle

def disconnect (c : Closing) : Java H Unit := do
  reset c
  editHeaders Transfer.clearHeaders

/-- `read` of the input stream, if the application has one. -/
def readInput (s : StreamCall) (r : BodyCall) : Java H Unit := do
  let inputStream ← Throws.read (·.inputStream)
  match inputStream with
  | none => pure ()
  | some input =>
      let result ← Throws.lift (onHandle (Transfer.inputRead { s with closed := input.closed } r))
      match result with
      | .error e => throw (.stream e)
      | .ok _ => pure ()

/-- `write` to the output stream, if the application has one. -/
def writeOutput (s : StreamCall) (w : BodyCall) : Java H Unit := do
  let outputStream ← Throws.read (·.outputStream)
  match outputStream with
  | none => pure ()
  | some output =>
      let result ← Throws.lift (onHandle (Transfer.outputWrite { s with closed := output.closed } w))
      match result with
      | .error e => throw (.stream e)
      | .ok _ => pure ()

/-- `close` of the input stream, if the application has one. -/
def closeInput : Java H Unit :=
  Throws.update fun conn => { conn with inputStream := conn.inputStream.map fun _ => ⟨true⟩ }

/-- `close` of the output stream, if the application has one. -/
def closeOutput (c : Closing) : Java H Unit := do
  let outputStream ← Throws.read (·.outputStream)
  match outputStream with
  | none => pure ()
  | some output =>
      if output.closed then pure ()
      else
        Throws.update fun conn => { conn with outputStream := some ⟨true⟩ }
        let result ← Throws.lift (onHandle (closeOpen c))
        match result with
        | .error e => throw (.stream e)
        | .ok _ => pure ()

/-! ## Setters -/

/-- Sets what may only be set before the connection is connected. -/
def setUnconnected (f : CurlConnection H → CurlConnection H) : Java H Unit := do
  assertNotConnected
  Throws.update f

/-- A method of `curl.url`. -/
def onUrl (method : MutableUrl → MutableUrl × Option UrlException) : Java H Unit := do
  let url ← Throws.read (·.url)
  Throws.update fun conn => { conn with url := (method url).1 }
  match (method url).2 with
  | some e => throw (.url e)
  | none => pure ()

def setUrlString (urlString : JString) : Java H Unit := do
  assertNotConnected
  onUrl (MutableUrl.setUrlString urlString)

def setProxy : Java H Unit := assertNotConnected

def setRequestMethod : Java H Unit := do
  let connected ← Throws.read (·.connected)
  if connected then throw (.protocolException "Can't reset method: already connected")
  else pure ()

def setDoInput (doInput : Bool) : Java H Unit :=
  setUnconnected fun conn => { conn with settings := { conn.settings with doInput } }

def setDoOutput (doOutput : Bool) : Java H Unit :=
  setUnconnected fun conn => { conn with settings := { conn.settings with doOutput } }

def setInstanceFollowRedirects (instanceFollowRedirects : Bool) : Java H Unit :=
  Throws.update fun conn => { conn with settings := { conn.settings with instanceFollowRedirects } }

/-- What the setters of a fixed length check. -/
def checkFixedLength (contentLength : Int) : Java H Unit := do
  assertNotConnected
  let settings ← Throws.read (·.settings)
  if settings.chunkLength ≠ -1 then
    throw (.illegalStateException "Chunked encoding streaming mode set")
  else if contentLength < 0 then throw .illegalArgumentException
  else pure ()

/-- `setFixedLengthStreamingMode(int)`. -/
def setFixedLengthStreamingMode (fixedContentLength : Int) : Java H Unit := do
  checkFixedLength fixedContentLength
  Throws.update fun conn => { conn with settings := { conn.settings with fixedContentLength } }

/-- `setFixedLengthStreamingMode(long)`. -/
def setFixedLengthStreamingModeLong (fixedContentLengthLong : Int) : Java H Unit := do
  checkFixedLength fixedContentLengthLong
  Throws.update fun conn => { conn with settings := { conn.settings with fixedContentLengthLong } }

def setChunkedStreamingMode (chunklen : Int) : Java H Unit := do
  assertNotConnected
  let settings ← Throws.read (·.settings)
  if settings.fixedContentLength ≠ -1 ∨ settings.fixedContentLengthLong ≠ -1 then
    throw (.illegalStateException "Fixed length streaming mode set")
  else
    let chunkLength := if chunklen ≤ 0 then 4096 else chunklen
    Throws.update fun conn => { conn with settings := { conn.settings with chunkLength } }

def setReadTimeout (readTimeout : Int) : Java H Unit := do
  if readTimeout < 0 then throw .illegalArgumentException
  else Throws.update fun conn => { conn with settings := { conn.settings with readTimeout } }

def setConnectTimeout (connectTimeout : Int) : Java H Unit := do
  if connectTimeout < 0 then throw .illegalArgumentException
  else Throws.update fun conn => { conn with settings := { conn.settings with connectTimeout } }

def setRequestProperty (alloc : HeaderAlloc) (key : JString) (value : Option JString) :
    Java H Unit := do
  assertNotConnected
  editHeaders (Transfer.setHeader alloc key value)

def addRequestProperty (alloc : HeaderAlloc) (key value : JString) : Java H Unit := do
  assertNotConnected
  editHeaders (Transfer.addHeader alloc key value)

def getRequestProperty (alloc : HeaderAlloc) (stringOk : Bool) (key : JString) :
    Java H (Option JString) := do
  assertNotConnected
  let returned ← callNative (Transfer.outHeader alloc stringOk key)
  pure (Returned.str returned)

end CurlConnection

/-! ## Calls in turn -/

/-- A setter, with its argument. -/
inductive Setter
  | setUrlString (urlString : JString)
  | setProxy
  | setRequestMethod
  | setDoInput (doInput : Bool)
  | setDoOutput (doOutput : Bool)
  | setInstanceFollowRedirects (follow : Bool)
  | setFixedLengthStreamingMode (contentLength : Int)
  | setFixedLengthStreamingModeLong (contentLength : Int)
  | setChunkedStreamingMode (chunklen : Int)
  | setReadTimeout (timeout : Int)
  | setConnectTimeout (timeout : Int)
  | setRequestProperty (alloc : HeaderAlloc) (key : JString) (value : Option JString)
  | addRequestProperty (alloc : HeaderAlloc) (key value : JString)

/-- A call on the connection or on one of its streams, with what it meets. -/
inductive ConnectionCall
  | connect (e : Connecting)
  | getResponseCode (e : Connecting) (code : Int)
  | getResponseMessage (e : Connecting) (stringOk : Bool)
  | getContent (e : Connecting)
  | getContentOf (assignable : List Bool) (e : Connecting)
  | getInputStream (e : Connecting)
  | getOutputStream (e : Connecting)
  | getErrorStream
  | getHeaderFieldAt (stringOk : Bool) (n : Int)
  | getHeaderFieldKey (stringOk : Bool) (n : Int)
  | getHeaderField (stringOk : Bool) (name : JString) (beyond : Nat → UInt8)
  | getHeaderFieldLong (name : JString) (default : Int) (beyond : Nat → UInt8)
  | getHeaderFields (alloc : ArrayAlloc)
  | getRequestProperty (alloc : HeaderAlloc) (stringOk : Bool) (key : JString)
  | set (setter : Setter)
  | readInput (s : StreamCall) (r : BodyCall)
  | writeOutput (s : StreamCall) (w : BodyCall)
  | closeInput
  | closeOutput (c : Closing)
  | reset (c : Closing)
  | disconnect (c : Closing)

section Calls
variable {equals : JString → JString → Bool} {H : HdrMap equals}

def Setter.run : Setter → Java H Unit
  | .setUrlString urlString => CurlConnection.setUrlString urlString
  | .setProxy => CurlConnection.setProxy
  | .setRequestMethod => CurlConnection.setRequestMethod
  | .setDoInput doInput => CurlConnection.setDoInput doInput
  | .setDoOutput doOutput => CurlConnection.setDoOutput doOutput
  | .setInstanceFollowRedirects follow => CurlConnection.setInstanceFollowRedirects follow
  | .setFixedLengthStreamingMode n => CurlConnection.setFixedLengthStreamingMode n
  | .setFixedLengthStreamingModeLong n => CurlConnection.setFixedLengthStreamingModeLong n
  | .setChunkedStreamingMode n => CurlConnection.setChunkedStreamingMode n
  | .setReadTimeout timeout => CurlConnection.setReadTimeout timeout
  | .setConnectTimeout timeout => CurlConnection.setConnectTimeout timeout
  | .setRequestProperty alloc key value => CurlConnection.setRequestProperty alloc key value
  | .addRequestProperty alloc key value => CurlConnection.addRequestProperty alloc key value

/-- A method, without what it returns or throws. -/
def discard {α : Type} (method : Java H α) : Program (CurlConnection H) Unit := fun conn =>
  ((method conn).1, (method conn).2.map fun _ => ())

def ConnectionCall.run : ConnectionCall → Program (CurlConnection H) Unit
  | .connect e => discard (CurlConnection.connect e)
  | .getResponseCode e code => discard (CurlConnection.getResponseCode e code)
  | .getResponseMessage e stringOk => discard (CurlConnection.getResponseMessage e stringOk)
  | .getContent e => discard (CurlConnection.getContent e)
  | .getContentOf assignable e => discard (CurlConnection.getContentOf assignable e)
  | .getInputStream e => discard (CurlConnection.getInputStream e)
  | .getOutputStream e => discard (CurlConnection.getOutputStream e)
  | .getErrorStream => discard CurlConnection.getErrorStream
  | .getHeaderFieldAt stringOk n => discard (CurlConnection.getHeaderFieldAt stringOk n)
  | .getHeaderFieldKey stringOk n => discard (CurlConnection.getHeaderFieldKey stringOk n)
  | .getHeaderField stringOk name beyond =>
      discard (CurlConnection.getHeaderField stringOk name beyond)
  | .getHeaderFieldLong name default beyond =>
      discard (CurlConnection.getHeaderFieldLong name default beyond)
  | .getHeaderFields alloc => discard (CurlConnection.getHeaderFields alloc)
  | .getRequestProperty alloc stringOk key =>
      discard (CurlConnection.getRequestProperty alloc stringOk key)
  | .set setter => discard setter.run
  | .readInput s r => discard (CurlConnection.readInput s r)
  | .writeOutput s w => discard (CurlConnection.writeOutput s w)
  | .closeInput => discard CurlConnection.closeInput
  | .closeOutput c => discard (CurlConnection.closeOutput c)
  | .reset c => discard (CurlConnection.reset c)
  | .disconnect c => discard (CurlConnection.disconnect c)

/-- Makes the calls one after another; what one throws does not stop the others. -/
def runConnection (calls : List ConnectionCall) : Program (CurlConnection H) Unit :=
  Program.forEach ConnectionCall.run calls

end Calls
end Chttpc
