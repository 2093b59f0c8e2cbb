import Chttpc.HeaderAccess

/-!
# Moving the body: `write_callback` and `read_callback`

`write_callback` is handed a chunk of the response and copies what fits into the
Java array of the read call under way.  A chunk that does not fit is refused: the
callback remembers in `readOverflow` how much of it has been copied, and libcurl
will offer the same position again.  `read_callback` is handed a buffer and fills
it from the Java array of the write call under way.

A callback returns a number of bytes or `CURL_READFUNC_PAUSE`, which are two
kinds of results here.  `Moved` also keeps what an observer of the memory would
see, and what the callback itself does not return: the bytes it copied, and the
range of the Java array it asked for.
-/

namespace Chttpc

/-- What a callback tells libcurl. -/
inductive CallbackReturn
  | bytes (n : Nat)
  | pause
  deriving DecidableEq, Repr

/-- The range of a Java array in one call of `GetByteArrayRegion` or
`SetByteArrayRegion`. -/
structure ArrayAccess where
  start : Int
  length : Int
  deriving DecidableEq, Repr

/-- The outcome of a callback: the handle, the bytes copied, the range of the
Java array asked for, and what libcurl is told. -/
structure Moved where
  ctrl : CurlData
  bytes : List UInt8
  access : Option ArrayAccess
  result : CallbackReturn

/-- Conversion to `uint64_t`. -/
def toUInt64 (n : Int) : Nat := (n % 2 ^ 64).toNat

/-- The range check of `GetByteArrayRegion` and `SetByteArrayRegion`. -/
def ArrayAccess.inBounds (access : ArrayAccess) (buf : List UInt8) : Prop :=
  0 ≤ access.start ∧ 0 ≤ access.length ∧ access.start + access.length ≤ buf.length

instance (access : ArrayAccess) (buf : List UInt8) : Decidable (access.inBounds buf) :=
  inferInstanceAs (Decidable (_ ∧ _ ∧ _))

/-- The bytes of an array in a range. -/
def region (buf : List UInt8) (start length : Int) : List UInt8 :=
  (buf.drop start.toNat).take length.toNat

/-- An array with some bytes replaced, from an index on. -/
def overwrite (buf : List UInt8) (start : Int) (bytes : List UInt8) : List UInt8 :=
  buf.take start.toNat ++ bytes ++ buf.drop (start.toNat + bytes.length)

/-- The value of a `char` as an `int`. -/
def Platform.charValue (platform : Platform) (c : UInt8) : Int :=
  if platform.signedChar ∧ 128 ≤ c then (c.toNat : Int) - 256 else c.toNat

namespace CurlData

def setSendPaused (paused : Bool) (ctrl : CurlData) : CurlData :=
  { ctrl with state := { ctrl.state with sendPaused := paused } }

def setRecvPaused (paused : Bool) (ctrl : CurlData) : CurlData :=
  { ctrl with state := { ctrl.state with recvPaused := paused } }

def setNeedInput (need : Bool) (ctrl : CurlData) : CurlData :=
  { ctrl with state := { ctrl.state with needInput := need } }

def setNeedOutput (need : Bool) (ctrl : CurlData) : CurlData :=
  { ctrl with state := { ctrl.state with needOutput := need } }

def setDoneSending (ctrl : CurlData) : CurlData :=
  { ctrl with state := { ctrl.state with doneSending := true } }

def throwOutOfBounds (ctrl : CurlData) : CurlData :=
  { ctrl with env := ctrl.env.throw .arrayIndexOutOfBounds }

/-! ## Receiving -/

/-- `array_write`: the handle and the bytes written into the array. -/
def arrayWrite (buf ptr : List UInt8) (count : Int) (ctrl : CurlData) : CurlData × List UInt8 :=
  if (⟨ctrl.readOffset, count⟩ : ArrayAccess).inBounds buf then
    let bytes := ptr.take count.toNat
    ({ ctrl with bufferForReceiving := some (overwrite buf ctrl.readOffset bytes) }, bytes)
  else (ctrl.throwOutOfBounds, [])

/-- What `write_callback` has taken from the chunk: the handle, the number of
bytes, the bytes, and the range of the array. -/
structure Taken where
  ctrl : CurlData
  count : Int
  bytes : List UInt8
  access : Option ArrayAccess

/-- Takes bytes from `ptr` on, where `pendingReal` of them are pending. -/
def takeReceived (platform : Platform) (ptr : List UInt8) (pendingReal : Int) (ctrl : CurlData) :
    Taken :=
  match ctrl.bufferForReceiving with
  | some buf =>
      let available := ctrl.countToRead
      let read := if pendingReal < available then pendingReal else available
      let written := ctrl.arrayWrite buf ptr read
      { ctrl := { written.1 with readOffset := ctrl.readOffset + read }
        count := read
        bytes := written.2
        access := some ⟨ctrl.readOffset, read⟩ }
  | none =>
      -- consume a single byte
      { ctrl := { ctrl with readOffset := platform.charValue (ptr.headD 0) }
        count := 1
        bytes := ptr.take 1
        access := none }

/-- `write_callback`, when it is called with `chunk`. -/
def writeCallback (platform : Platform) (chunk : List UInt8) (ctrl : CurlData) : Moved :=
  if ctrl.countToRead = 0 then ⟨ctrl.setRecvPaused true, [], none, .pause⟩
  else
    let curlPendingDataSize := toInt32 chunk.length
    if curlPendingDataSize ≤ ctrl.readOverflow then
      ⟨{ ctrl with readOverflow := ctrl.readOverflow - curlPendingDataSize }, [], none,
        .bytes (platform.toSizeT curlPendingDataSize)⟩
    else
      let pendingReal := curlPendingDataSize - ctrl.readOverflow
      let taken := ctrl.takeReceived platform (chunk.drop ctrl.readOverflow.toNat) pendingReal
      let countToRead := ctrl.countToRead - taken.count
      if taken.count = pendingReal then
        ⟨{ taken.ctrl with countToRead, readOverflow := 0 }, taken.bytes, taken.access,
          .bytes (platform.toSizeT curlPendingDataSize)⟩
      else
        -- out of space: note how much of the chunk has been copied and slow down
        ⟨({ taken.ctrl with
            countToRead, readOverflow := ctrl.readOverflow + taken.count }).setRecvPaused true,
          taken.bytes, taken.access, .pause⟩

/-! ## Sending -/

/-- `array_read`: the handle and the bytes placed in libcurl's buffer. -/
def arrayRead (buf : List UInt8) (count : Int) (ctrl : CurlData) : CurlData × List UInt8 :=
  if (⟨ctrl.writeOffset, count⟩ : ArrayAccess).inBounds buf then
    (ctrl, region buf ctrl.writeOffset count)
  else (ctrl.throwOutOfBounds, [])

/-- Places bytes in a buffer of libcurl. -/
def placeBytes (capacity : Nat) (ctrl : CurlData) : Taken :=
  match ctrl.bufferForSending with
  | some buf =>
      let available := ctrl.countToWrite
      let curlBufferCapacity := toInt32 capacity
      let written := if curlBufferCapacity < available then curlBufferCapacity else available
      let placed := ctrl.arrayRead buf written
      { ctrl := { placed.1 with writeOffset := ctrl.writeOffset + written }
        count := written
        bytes := placed.2
        access := some ⟨ctrl.writeOffset, written⟩ }
  | none =>
      -- writing a single byte
      { ctrl, count := 1, bytes := [UInt8.ofNat (ctrl.writeOffset % 256).toNat], access := none }

/-- Counts the bytes of an upload of known length. -/
def countUploaded (written : Int) (ctrl : CurlData) : CurlData :=
  if ctrl.uploadGoal = 0 then ctrl
  else
    let ctrl := { ctrl with uploadedCount := toUInt64 (ctrl.uploadedCount + written) }
    -- curl stops the upload itself, but this tells the loop when to stop as well
    if ctrl.uploadGoal ≤ ctrl.uploadedCount then ctrl.setSendPaused true else ctrl

/-- `read_callback`, with `capacity = size * nitems`. -/
def readCallback (platform : Platform) (capacity : Nat) (ctrl : CurlData) : Moved :=
  if ctrl.state.doneSending then ⟨ctrl.setSendPaused true, [], none, .bytes 0⟩
  else if ctrl.countToWrite = 0 then
    -- out of data to send, slow down
    ⟨ctrl.setSendPaused true, [], none, .pause⟩
  else
    let placed := ctrl.placeBytes capacity
    let counted := placed.ctrl.countUploaded placed.count
    ⟨{ counted with countToWrite := ctrl.countToWrite - placed.count }, placed.bytes,
      placed.access, .bytes (platform.toSizeT placed.count)⟩

def eofCallback (ctrl : CurlData) : Moved := ⟨ctrl.setSendPaused true, [], none, .bytes 0⟩

/-! ## What the callbacks leave alone -/

section Frame
variable (ctrl : CurlData)

theorem threading_throwOutOfBounds : ctrl.throwOutOfBounds.env.threading = ctrl.env.threading :=
  JNIEnv.threading_throw _ (by decide)

theorem arrayWrite_eq (buf ptr : List UInt8) (count : Int) :
    (ctrl.arrayWrite buf ptr count).1 =
      { ctrl with
        env := (ctrl.arrayWrite buf ptr count).1.env
        bufferForReceiving := (ctrl.arrayWrite buf ptr count).1.bufferForReceiving } := by
  unfold arrayWrite
  split <;> rfl

theorem threading_arrayWrite (buf ptr : List UInt8) (count : Int) :
    (ctrl.arrayWrite buf ptr count).1.env.threading = ctrl.env.threading := by
  unfold arrayWrite
  split
  · rfl
  · exact ctrl.threading_throwOutOfBounds

theorem takeReceived_eq (platform : Platform) (ptr : List UInt8) (pendingReal : Int) :
    (ctrl.takeReceived platform ptr pendingReal).ctrl =
      { ctrl with
        env := (ctrl.takeReceived platform ptr pendingReal).ctrl.env
        bufferForReceiving := (ctrl.takeReceived platform ptr pendingReal).ctrl.bufferForReceiving
        readOffset := (ctrl.takeReceived platform ptr pendingReal).ctrl.readOffset } := by
  unfold takeReceived
  split
  · dsimp only
    rw [arrayWrite_eq]
  · rfl

theorem threading_takeReceived (platform : Platform) (ptr : List UInt8) (pendingReal : Int) :
    (ctrl.takeReceived platform ptr pendingReal).ctrl.env.threading = ctrl.env.threading := by
  unfold takeReceived
  split
  · exact ctrl.threading_arrayWrite _ _ _
  · rfl

/-- `write_callback` changes what belongs to receiving, and may raise an exception. -/
theorem writeCallback_eq (platform : Platform) (chunk : List UInt8) :
    (ctrl.writeCallback platform chunk).ctrl =
      { ctrl with
        env := (ctrl.writeCallback platform chunk).ctrl.env
        bufferForReceiving := (ctrl.writeCallback platform chunk).ctrl.bufferForReceiving
        readOffset := (ctrl.writeCallback platform chunk).ctrl.readOffset
        countToRead := (ctrl.writeCallback platform chunk).ctrl.countToRead
        readOverflow := (ctrl.writeCallback platform chunk).ctrl.readOverflow
        state := { ctrl.state with
          recvPaused := (ctrl.writeCallback platform chunk).ctrl.state.recvPaused } } := by
  unfold writeCallback
  split
  · rfl
  · dsimp only
    split
    · rfl
    · rw [takeReceived_eq]
      split <;> rfl

theorem threading_writeCallback (platform : Platform) (chunk : List UInt8) :
    (ctrl.writeCallback platform chunk).ctrl.env.threading = ctrl.env.threading := by
  unfold writeCallback
  split
  · rfl
  · dsimp only
    split
    · rfl
    · split
      · exact ctrl.threading_takeReceived _ _ _
      · exact ctrl.threading_takeReceived _ _ _

theorem arrayRead_eq (buf : List UInt8) (count : Int) :
    (ctrl.arrayRead buf count).1 = { ctrl with env := (ctrl.arrayRead buf count).1.env } := by
  unfold arrayRead
  split <;> rfl

theorem threading_arrayRead (buf : List UInt8) (count : Int) :
    (ctrl.arrayRead buf count).1.env.threading = ctrl.env.threading := by
  unfold arrayRead
  split
  · rfl
  · exact ctrl.threading_throwOutOfBounds

theorem placeBytes_eq (capacity : Nat) :
    (ctrl.placeBytes capacity).ctrl =
      { ctrl with
        env := (ctrl.placeBytes capacity).ctrl.env
        writeOffset := (ctrl.placeBytes capacity).ctrl.writeOffset } := by
  unfold placeBytes
  split
  · dsimp only
    rw [arrayRead_eq]
  · rfl

theorem threading_placeBytes (capacity : Nat) :
    (ctrl.placeBytes capacity).ctrl.env.threading = ctrl.env.threading := by
  unfold placeBytes
  split
  · exact ctrl.threading_arrayRead _ _
  · rfl

theorem countUploaded_eq (written : Int) :
    ctrl.countUploaded written =
      { ctrl with
        uploadedCount := (ctrl.countUploaded written).uploadedCount
        state := { ctrl.state with
          sendPaused := (ctrl.countUploaded written).state.sendPaused } } := by
  unfold countUploaded
  split
  · rfl
  · dsimp only
    split <;> rfl

/-- `read_callback` changes what belongs to sending, and may raise an exception. -/
theorem readCallback_eq (platform : Platform) (capacity : Nat) :
    (ctrl.readCallback platform capacity).ctrl =
      { ctrl with
        env := (ctrl.readCallback platform capacity).ctrl.env
        writeOffset := (ctrl.readCallback platform capacity).ctrl.writeOffset
        countToWrite := (ctrl.readCallback platform capacity).ctrl.countToWrite
        uploadedCount := (ctrl.readCallback platform capacity).ctrl.uploadedCount
        state := { ctrl.state with
          sendPaused := (ctrl.readCallback platform capacity).ctrl.state.sendPaused } } := by
  unfold readCallback
  split
  · rfl
  · split
    · rfl
    · dsimp only
      rw [countUploaded_eq, placeBytes_eq]

theorem threading_readCallback (platform : Platform) (capacity : Nat) :
    (ctrl.readCallback platform capacity).ctrl.env.threading = ctrl.env.threading := by
  unfold readCallback
  split
  · rfl
  · split
    · rfl
    · dsimp only
      rw [countUploaded_eq]
      exact ctrl.threading_placeBytes capacity

end Frame

end CurlData
end Chttpc
