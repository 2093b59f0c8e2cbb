import Chttpc.ShortReads

/-!
# Reading byte by byte

`InputStream.read()` asks the native method for one byte without an array, and gets it
out of `readOffset`, where `write_callback` has put the first byte of a chunk.  Over a
response, with any calls before, such reads deliver the bytes that have not been copied,
one after another, and -1 behind the last one (`ByteReads.values`).

The byte is stored as a `char`, and comes out as one.  So the values are those of
`InputStream.read()` exactly when `char` is unsigned or no byte is above 127
(`byte_reads_iff`); where it is signed, 0xff reads as the end of the response.
-/

namespace Chttpc
open Program

/-! ## The response over any run -/

namespace CurlData
variable {ctrl ctrl' : CurlData} {bytes : List UInt8}

theorem Room.received (h : ctrl.Room) (hreceived : Received ctrl ctrl' bytes) : ctrl'.Room := by
  have hfits := hreceived.fits
  have hcount := hreceived.countToRead
  obtain ⟨hnonneg, hroom⟩ := h
  refine ⟨by omega, fun hne => ?_⟩
  have hroom := hroom (by omega)
  cases hbuf : ctrl.bufferForReceiving with
  | none =>
    rw [hbuf] at hroom
    rw [hreceived.single hbuf]
    dsimp only at hroom ⊢
    omega
  | some buf =>
    rw [hbuf] at hroom
    obtain ⟨harray, hoffset⟩ := hreceived.array buf hbuf
    rw [harray, hoffset]
    dsimp only at hroom ⊢
    rw [length_overwrite (by omega)]
    omega

theorem room_of_zero (h : ctrl.countToRead = 0) : ctrl.Room :=
  ⟨Int.le_of_eq h.symm, fun hne => absurd h hne⟩

theorem Room.of_eq (h : ctrl.Room) (hcount : ctrl'.countToRead = ctrl.countToRead)
    (hbuf : ctrl'.bufferForReceiving = ctrl.bufferForReceiving)
    (hoffset : ctrl'.readOffset = ctrl.readOffset) : ctrl'.Room := by
  unfold Room at h ⊢
  rw [hcount, hbuf, hoffset]
  exact h

end CurlData

/-- What has been copied is the beginning of the response libcurl is sending, whatever
calls have been made; a handle without a transfer owes nothing. -/
structure Delivered (t : Transfer) : Prop where
  attached : t.curl.attached = t.ctrl.state.attached
  downloading : Downloading t.curl.body t
  room : t.ctrl.Room
  detached : t.curl.attached = false → t.ctrl.readOverflow = 0

namespace Delivered
variable {t t' : Transfer}

theorem of_eq (h : Delivered t) (hstate : t'.ctrl.state.attached = t.ctrl.state.attached)
    (hattached : t'.curl.attached = t.curl.attached) (hbody : t'.curl.body = t.curl.body)
    (haccepted : t'.curl.accepted = t.curl.accepted)
    (hoverflow : t'.ctrl.readOverflow = t.ctrl.readOverflow) (hcopied : t'.copied = t.copied)
    (hroom : t'.ctrl.Room) : Delivered t' := by
  refine ⟨hattached.trans (h.attached.trans hstate.symm), ?_, hroom, fun hdetached => ?_⟩
  · rw [hbody]
    exact h.downloading.of_eq hbody haccepted hoverflow hcopied
  · exact hoverflow.trans (h.detached (hattached.symm.trans hdetached))

/-- A change of the handle that is not about receiving. -/
theorem of_handle (h : Delivered t) {ctrl : CurlData}
    (hstate : ctrl.state.attached = t.ctrl.state.attached)
    (hoverflow : ctrl.readOverflow = t.ctrl.readOverflow)
    (hcount : ctrl.countToRead = t.ctrl.countToRead)
    (hbuf : ctrl.bufferForReceiving = t.ctrl.bufferForReceiving)
    (hoffset : ctrl.readOffset = t.ctrl.readOffset) : Delivered { t with ctrl } :=
  h.of_eq hstate rfl rfl rfl hoverflow rfl (h.room.of_eq hcount hbuf hoffset)

theorem receiveChunk (h : Delivered t) {n : Nat} (hn : n < 2 ^ 31)
    (hattached : t.curl.attached = true) : Delivered (t.receiveChunk n) := by
  obtain ⟨bytes, hreceived, -⟩ := h.downloading.receiver_receiveChunk h.room hn
  have hbody : (t.receiveChunk n).curl.body = t.curl.body := by
    show (Libcurl.afterWrite _ _ _).body = _
    rw [Libcurl.afterWrite_eq]
  have hcurl : (t.receiveChunk n).curl.attached = t.curl.attached := by
    show (Libcurl.afterWrite _ _ _).attached = _
    rw [Libcurl.afterWrite_eq]
  refine ⟨?_, ?_, h.room.received hreceived, fun hdetached => ?_⟩
  · rw [hcurl, h.attached]
    show _ = (CurlData.writeCallback _ _ _).ctrl.state.attached
    rw [CurlData.writeCallback_eq]
  · rw [hbody]
    exact h.downloading.receiveChunk h.room hn
  · rw [hcurl, hattached] at hdetached
    cases hdetached

theorem sendChunk (h : Delivered t) (capacity : Nat) : Delivered (t.sendChunk capacity) := by
  unfold Transfer.sendChunk
  dsimp only
  rw [Libcurl.afterRead_eq]
  split
  · rw [CurlData.readCallback_eq]
    exact h.of_eq rfl rfl rfl rfl rfl rfl (h.room.of_eq rfl rfl rfl)
  · exact h.of_eq rfl rfl rfl rfl rfl rfl (h.room.of_eq rfl rfl rfl)

protected theorem invariant : Transfer.Invariant Delivered Callback.FitsInt where
  io := fun _ _ hio h => h.of_handle (congrArg (·.state.attached) hio)
    (congrArg (·.readOverflow) hio) (congrArg (·.countToRead) hio)
    (congrArg (·.bufferForReceiving) hio) (congrArg (·.readOffset) hio)
  receive := fun _ _ hn hattached h => h.receiveChunk hn hattached
  send := fun _ capacity _ _ h => h.sendChunk capacity
  wait := fun _ _ h => h.of_eq rfl rfl rfl rfl rfl rfl h.room

theorem attach (h : Delivered t) (c : Configure) : Delivered (c.attach t) := by
  cases hattached : t.ctrl.state.attached with
  | true =>
    have hsame : c.attach t =
        { t with ctrl := c.setCtrl t.ctrl, curl := c.setCurl t.ctrl.outHeaders t.curl } :=
      if_pos hattached
    rw [hsame]
    exact h.of_eq rfl rfl rfl rfl rfl rfl (h.room.of_eq rfl rfl rfl)
  | false =>
    have hoverflow := h.detached (h.attached.trans hattached)
    have hdownloading := Downloading.attach c hattached hoverflow
    rw [c.attach_detached hattached] at hdownloading ⊢
    exact ⟨rfl, hdownloading, h.room.of_eq rfl rfl rfl, (nomatch ·)⟩

theorem reset (h : Delivered t) : Delivered (t.detach.modify CurlData.reset) := by
  unfold Transfer.detach
  split
  · exact ⟨rfl, ⟨.inl rfl, Int.le_refl 0, Nat.le_refl 0, rfl⟩, h.room.of_eq rfl rfl rfl, fun _ => rfl⟩
  · rename_i hattached
    have hcurl : t.curl.attached = false := h.attached.trans (Bool.eq_false_iff.mpr hattached)
    have hoverflow := h.detached hcurl
    refine ⟨hcurl, h.downloading.of_eq rfl rfl hoverflow.symm rfl, h.room.of_eq rfl rfl rfl,
      fun _ => rfl⟩

protected theorem lines : Transfer.Lines Delivered Call.Checked where
  lock := fun _ _ _ h => h.of_handle rfl rfl rfl rfl rfl
  wire := fun _ _ hwire h => h.of_handle (congrArg (·.state.attached) hwire)
    (congrArg (·.readOverflow) hwire) (congrArg (·.countToRead) hwire)
    (congrArg (·.bufferForReceiving) hwire) (congrArg (·.readOffset) hwire)
  beginConfigure := fun _ _ _ h => h.of_eq rfl rfl rfl rfl rfl rfl (CurlData.room_of_zero rfl)
  attach := fun _ c _ h => h.attach c
  beginRead := fun t _ hr h => h.of_eq rfl rfl rfl rfl rfl rfl
    ((BodyCall.Holds.beginRead hr t.ctrl).room hr)
  beginWrite := fun _ _ h => h.of_eq rfl rfl rfl rfl rfl rfl (CurlData.room_of_zero rfl)
  beginClose := fun _ h => h.of_eq rfl rfl rfl rfl rfl rfl (CurlData.room_of_zero rfl)
  needInput := fun _ h => h.of_handle rfl rfl rfl rfl rfl
  needOutput := fun _ h => h.of_handle rfl rfl rfl rfl rfl
  resumeReceiving := fun _ h => h.of_eq rfl rfl rfl rfl rfl rfl (h.room.of_eq rfl rfl rfl)
  resumeSending := fun _ h => h.of_eq rfl rfl rfl rfl rfl rfl (h.room.of_eq rfl rfl rfl)
  reset := fun _ _ h => h.reset

/-- **At every instant of any run, what has been copied is the beginning of the response**
libcurl is sending. -/
theorem run (platform : Platform) (rodata : Nat → UInt8) {calls : List Call}
    (hcalls : ∀ call ∈ calls, call.Checked ∧ call.All Callback.FitsInt) :
    Delivered (runCalls calls (.fresh platform rodata)).1 := by
  have hkeeps : Keeps Delivered (runCalls calls) :=
    Keeps.forEach fun call hcall => Delivered.lines.keeps_run Delivered.invariant
      (hcalls call hcall).1 (hcalls call hcall).2
  refine keeps_iff.mp hkeeps (.fresh platform rodata) ⟨rfl, ?_, CurlData.room_of_zero rfl, fun _ => rfl⟩
  exact ⟨.inl rfl, Int.le_refl 0, Nat.le_refl 0, rfl⟩

end Delivered

/-! ## One byte -/

theorem CurlData.writeCallback_cell {ctrl : CurlData} {platform : Platform} {chunk : List UInt8}
    {b : UInt8} (hbuf : ctrl.bufferForReceiving = none)
    (h : (ctrl.writeCallback platform chunk).bytes = [b]) :
    (ctrl.writeCallback platform chunk).ctrl.readOffset = platform.charValue b := by
  have hcell : ∀ ptr : List UInt8, ptr.take 1 = [b] →
      platform.charValue (ptr.headD 0) = platform.charValue b := by
    rintro (_ | ⟨c, ptr⟩) hptr
    · cases hptr
    · cases hptr
      rfl
  unfold writeCallback at h ⊢
  split
  · rename_i hcount
    rw [if_pos hcount] at h
    cases h
  rename_i hcount
  rw [if_neg hcount] at h
  dsimp only at h ⊢
  split
  · rename_i hcovered
    rw [if_pos hcovered] at h
    cases h
  rename_i hcovered
  rw [if_neg hcovered] at h
  unfold takeReceived at h ⊢
  rw [hbuf] at h ⊢
  dsimp only at h ⊢
  split
  · rename_i hwhole
    rw [if_pos hwhole] at h
    exact hcell _ h
  · rename_i hwhole
    rw [if_neg hwhole] at h
    exact hcell _ h

/-- With nothing asked for, the cell is left alone. -/
theorem CurlData.writeCallback_sated {ctrl : CurlData} (platform : Platform) (chunk : List UInt8)
    (h : ctrl.countToRead = 0) : (ctrl.writeCallback platform chunk).ctrl.readOffset = ctrl.readOffset ∧
      (ctrl.writeCallback platform chunk).bytes = [] := by
  unfold writeCallback
  rw [if_pos h]
  exact ⟨rfl, rfl⟩

/-- A `read` of one byte under way: the byte it has copied is in the cell. -/
structure ByteReading (r : BodyCall) (before : List UInt8) (t : Transfer) : Prop
    extends Reading r before t where
  cell : ∀ b, t.copied = before ++ [b] → t.ctrl.readOffset = t.platform.charValue b

namespace ByteReading
variable {r : BodyCall} {before : List UInt8} {t t' : Transfer}

theorem receiveChunk (hbuf : r.buf = none) (hr : r.InRange) (h : ByteReading r before t) {n : Nat}
    (hn : n < 2 ^ 31) : ByteReading r before (t.receiveChunk n) := by
  refine ⟨h.toReading.receiveChunk hr hn, fun b hb => ?_⟩
  obtain ⟨bytes, hcopied, hle, hcount, hnone⟩ := h.counted
  rw [hbuf] at hnone
  have hone : r.count = 1 := by
    unfold BodyCall.InRange at hr
    rwa [hbuf] at hr
  have hchunk : t.copied ++ (t.ctrl.writeCallback t.platform (t.curl.offer n)).bytes =
      before ++ [b] := hb
  show (t.ctrl.writeCallback t.platform (t.curl.offer n)).ctrl.readOffset = t.platform.charValue b
  by_cases hsated : t.ctrl.countToRead = 0
  · obtain ⟨hoffset, hbytes⟩ := CurlData.writeCallback_sated t.platform (t.curl.offer n) hsated
    rw [hbytes, List.append_nil] at hchunk
    rw [hoffset]
    exact h.cell b hchunk
  · have hnil : bytes = [] := List.length_eq_zero_iff.mp (by omega)
    rw [hcopied, hnil, List.append_nil] at hchunk
    exact CurlData.writeCallback_cell hnone (List.append_cancel_left hchunk)

protected theorem invariant (hbuf : r.buf = none) (hr : r.InRange) :
    Transfer.Invariant (ByteReading r before) Callback.FitsInt where
  io := fun t ctrl hio h => ⟨(Reading.invariant hr).io t ctrl hio h.toReading, fun b hb =>
    (show ctrl.readOffset = t.ctrl.readOffset from congrArg (·.readOffset) hio).trans (h.cell b hb)⟩
  receive := fun _ _ hn _ h => h.receiveChunk hbuf hr hn
  send := by
    intro t capacity hok hattached h
    refine ⟨(Reading.invariant hr).send t capacity hok hattached h.toReading, ?_⟩
    unfold Transfer.sendChunk
    dsimp only
    split
    · rw [CurlData.readCallback_eq]
      exact h.cell
    · exact h.cell
  wait := fun t hbails h => ⟨(Reading.invariant hr).wait t hbails h.toReading, h.cell⟩

/-- Nothing has been copied when the call begins. -/
theorem of_reading (h : Reading r before t) (hsame : t.copied = before) : ByteReading r before t :=
  ⟨h, fun _ hb => absurd (hsame.symm.trans hb) (by simp)⟩

theorem resumed {s : Transfer} {code : CURLcode} (hbuf : r.buf = none) (hr : r.InRange)
    (hpause : r.pause.All Callback.FitsInt) (hmetered : t.ctrl.Metered)
    (hneed : t.ctrl.state.needOutput = false)
    (h : Transfer.resumeReceiving r.pause (t.reading r) = (s, some code)) :
    ByteReading r t.copied s := by
  have hreading : Reading r t.copied s := Reading.resumed hr hpause hmetered hneed h
  rw [Transfer.resumeReceiving, Transfer.resume_eq] at h
  cases hpaused : (t.reading r).ctrl.state.recvPaused with
  | false =>
    rw [hpaused, if_neg (by decide)] at h
    cases h
    exact of_reading hreading rfl
  | true =>
    rw [hpaused, if_pos rfl] at h
    have hs := congrArg Prod.fst h
    subst hs
    exact (ByteReading.invariant hbuf hr).invokeAll r.pause.callbacks hpause
      (of_reading (Reading.cleared hr hmetered hneed) rfl)

end ByteReading

/-- **What a `read` without an array answers**: the byte it has copied, as a `char`, or -1
when it has found that the transfer is over. -/
theorem ReadExit.byte {r : BodyCall} {t t' : Transfer} {value : Int} (hbuf : r.buf = none)
    (hr : r.InRange) (hok : (Call.read r).All Callback.FitsInt) (hmetered : t.ctrl.Metered)
    (hneed : t.ctrl.state.needOutput = false) (hinput : t.ctrl.state.doInput = true)
    (hclear : r.Undisturbed) (h : ReadExit r (t.reading r) t' value)
    (hpending : t'.ctrl.env.pending = none) :
    (∃ b, t'.copied = t.copied ++ [b] ∧ value = t'.platform.charValue b) ∨
      (t'.copied = t.copied ∧ value = -1 ∧ r.Finishes t) := by
  have hone : r.count = 1 := by
    unfold BodyCall.InRange at hr
    rwa [hbuf] at hr
  have hloop : ∀ {s : Transfer} {ended : Bool},
      Transfer.resumeReceiving r.pause (t.reading r) = (s, some .ok) →
      Transfer.curlPerform r.loop s = (t', some ended) → ByteReading r t.copied t' ∧
        ((ended = true ∧ r.Finishes t) ∨ t'.ctrl.countToRead = 0) := by
    intro s ended hresume hperform
    have hreading := ByteReading.resumed hbuf hr hok.1 hmetered hneed hresume
    have hkeeps : Keeps (ByteReading r t.copied) (Transfer.curlPerform r.loop) :=
      (ByteReading.invariant hbuf hr).curlPerform hok.2
    have hafter := keeps_iff.mp hkeeps s hreading
    rw [hperform] at hafter
    obtain ⟨-, pass, hlast, hpass⟩ := hreading.toReading.loop hr hok.2 hperform
    refine ⟨hafter, ?_⟩
    rcases hafter.toReading.last_pass hpass with ⟨hended, hraised | hfinishes⟩ | ⟨-, hseen | hfull⟩
    · exact absurd hpending hraised
    · exact .inl ⟨hended, s, pass, hresume, hlast, hfinishes⟩
    · exact absurd hseen (hclear.not_seen hlast)
    · exact .inr hfull
  cases h with
  | refused hresume _ => exact absurd hpending (pending_refused hinput hresume)
  | interrupted _ hflag => rw [hclear.interrupted] at hflag; cases hflag
  | drained hresume _ hperform hdrained =>
    obtain ⟨hafter, hend⟩ := hloop hresume hperform
    obtain ⟨bytes, hcopied, -, hcount, -⟩ := hafter.counted
    obtain ⟨-, -, hleft, hall⟩ := hdrained
    have hnil : bytes = [] := List.length_eq_zero_iff.mp (by omega)
    rw [hnil, List.append_nil] at hcopied
    exact .inr ⟨hcopied, rfl, (hend.resolve_right (by omega)).2⟩
  | success hresume _ hperform hdrained =>
    obtain ⟨hafter, hend⟩ := hloop hresume hperform
    obtain ⟨bytes, hcopied, hle, hcount, -⟩ := hafter.counted
    match bytes, hcopied, hle, hcount with
    | [], _, _, hcount =>
      rw [hone, List.length_nil] at hcount
      rcases hend with ⟨hended, -⟩ | hfull
      · exact absurd ⟨hclear.interruptedAgain, hended, by omega, by omega⟩ hdrained
      · omega
    | [b], hcopied, _, _ =>
      refine .inl ⟨b, hcopied, ?_⟩
      rw [CurlData.readValue, if_pos hone]
      exact hafter.cell b hcopied
    | _ :: _ :: _, _, hle, _ =>
      simp only [List.length_cons] at hle
      omega

/-! ## One byte after another -/

/-- What `n` calls of `InputStream.read()` are to return, when `values` are left: one after
another, and -1 behind the last. -/
def oneByOne : List Int → Nat → List Int
  | _, 0 => []
  | [], n + 1 => -1 :: oneByOne [] n
  | value :: values, n + 1 => value :: oneByOne values n

/-- The bytes of the response that have not been copied. -/
def Transfer.rest (t : Transfer) : List UInt8 := t.curl.body.drop t.copied.length

/-- Calls of `InputStream.read()` in turn that return values, without an interruption.  What
is known of libcurl is that it does not report the end of a transfer before all of the
response has been accepted. -/
inductive ByteReads : Transfer → List BodyCall → List Int → Transfer → Prop
  | nil (t : Transfer) : ByteReads t [] [] t
  | cons {t t₁ t' : Transfer} {r : BodyCall} {rs : List BodyCall} {value : Int}
      {values : List Int} : r.buf = none → r.count = 1 → (Call.read r).All Callback.FitsInt →
      r.Undisturbed → Transfer.inputRead quietCall r t = (t₁, some (.ok value)) →
      (r.Finishes t → t₁.curl.accepted = t₁.curl.body.length) →
      ByteReads t₁ rs values t' → ByteReads t (r :: rs) (value :: values) t'

/-- The handle can be in this state between two calls. -/
def Reached (platform : Platform) (rodata : Nat → UInt8) (t : Transfer) : Prop :=
  ∃ calls : List Call, (∀ call ∈ calls, call.Checked ∧ call.All Callback.FitsInt) ∧
    runCalls calls (.fresh platform rodata) = (t, some ())

namespace Reached
variable {platform : Platform} {rodata : Nat → UInt8} {t t' : Transfer}

theorem next (h : Reached platform rodata t) {call : Call} {returned : Returned}
    (hcall : call.Checked ∧ call.All Callback.FitsInt) (hrun : call.run t = (t', some returned)) :
    Reached platform rodata t' := by
  obtain ⟨calls, hcalls, hreach⟩ := h
  refine ⟨calls ++ [call], fun c hc => ?_, ?_⟩
  · rcases List.mem_append.mp hc with hc | hc
    · exact hcalls c hc
    · rw [List.mem_singleton.mp hc]
      exact hcall
  · rw [runCalls, forEach_append hreach, forEach, bind_some hrun]
    rfl

theorem metered (h : Reached platform rodata t) : t.ctrl.Metered := by
  obtain ⟨calls, hcalls, hrun⟩ := h
  exact CurlData.Metered.run (fun call hcall => (hcalls call hcall).1) hrun

theorem delivered (h : Reached platform rodata t) : Delivered t := by
  obtain ⟨calls, hcalls, hrun⟩ := h
  have hrun' := Delivered.run platform rodata hcalls
  rwa [hrun] at hrun'

theorem needOutput (h : Reached platform rodata t) (hbusy : t.ctrl.busy = false) :
    t.ctrl.state.needOutput = false := by
  obtain ⟨calls, -, hrun⟩ := h
  exact (released_or_taken (released_fresh platform rodata) hrun).elim (·.needOutput)
    fun htaken => by rw [hbusy] at htaken; cases htaken

end Reached

theorem subject_lines (subject : Bool × List UInt8 × Platform) (r : BodyCall) :
    Transfer.Lines (·.subject = subject) (· = .read r) where
  lock := fun _ _ _ h => Transfer.subject_of_eq h rfl rfl rfl
  wire := fun _ _ hwire h =>
    Transfer.subject_of_eq h (congrArg (·.state.doInput) hwire) rfl rfl
  beginConfigure := fun _ _ hcall => by cases hcall
  attach := fun _ _ hcall => by cases hcall
  beginRead := fun _ _ _ h => Transfer.subject_of_eq h rfl rfl rfl
  beginWrite := fun _ _ h => Transfer.subject_of_eq h rfl rfl rfl
  beginClose := fun _ h => Transfer.subject_of_eq h rfl rfl rfl
  needInput := fun _ h => Transfer.subject_of_eq h rfl rfl rfl
  needOutput := fun _ h => Transfer.subject_of_eq h rfl rfl rfl
  resumeReceiving := fun _ h => Transfer.subject_of_eq h rfl rfl rfl
  resumeSending := fun _ h => Transfer.subject_of_eq h rfl rfl rfl
  reset := fun _ hcall => by cases hcall

/-- A `read` does not change what the transfer is about. -/
theorem subject_read {r : BodyCall} {t t' : Transfer} {result : Option Returned}
    (h : Transfer.read r t = (t', result)) : t'.subject = t.subject := by
  have hsubject : Keeps (·.subject = t.subject) (Call.read r).run :=
    (subject_lines t.subject r).keeps_run (subject_invariant t.subject) rfl (Call.read r).all_true
  have hkeeps := keeps_iff.mp hsubject t rfl
  rw [show (Call.read r).run t = _ from h] at hkeeps
  exact hkeeps

/-- **One call of `InputStream.read()`** returns the next byte, as a `char`, or finds nothing
left. -/
theorem inputRead_byte {platform : Platform} {rodata : Nat → UInt8} {t t' : Transfer} {r : BodyCall}
    {value : Int} (hreach : Reached platform rodata t) (hinput : t.ctrl.state.doInput = true)
    (hbuf : r.buf = none) (hone : r.count = 1) (hok : (Call.read r).All Callback.FitsInt)
    (hclear : r.Undisturbed)
    (hread : Transfer.inputRead quietCall r t = (t', some (.ok value)))
    (hcomplete : r.Finishes t → t'.curl.accepted = t'.curl.body.length) :
    Reached platform rodata t' ∧ t'.subject = t.subject ∧
      ((∃ b, t.rest = b :: t'.rest ∧ value = t.platform.charValue b) ∨
        (t.rest = [] ∧ t'.rest = [] ∧ value = -1)) := by
  have hr : r.InRange := by
    unfold BodyCall.InRange
    rwa [hbuf]
  rw [Transfer.inputRead_eq hr, if_neg (by decide), if_neg (by decide)] at hread
  rcases hcall : Transfer.read r t with ⟨t₁, _ | returned⟩
  · rw [hcall] at hread
    cases hread
  rw [hcall] at hread
  obtain ⟨rfl, houtcome⟩ : t₁ = t' ∧ quietCall.outcome returned t₁ = .ok value := by
    simpa using hread
  have hpending : t₁.ctrl.env.pending = none := by
    unfold StreamCall.outcome at houtcome
    split at houtcome
    · cases houtcome
    · assumption
  have hvalue : returned.toInt = value := by
    unfold StreamCall.outcome at houtcome
    rw [hpending] at houtcome
    injection houtcome
  have hbusy : t.ctrl.busy = false := Transfer.free_of_acquire hcall hpending
  have hchecked : (Call.read r).Checked ∧ (Call.read r).All Callback.FitsInt := ⟨hr, hok⟩
  have hnext : Reached platform rodata t₁ := hreach.next hchecked hcall
  have hsubject := subject_read hcall
  have hbody : t₁.curl.body = t.curl.body := congrArg (·.2.1) hsubject
  have hplatform : t₁.platform = t.platform := congrArg (·.2.2) hsubject
  have hfaithful := hnext.delivered.downloading.faithful
  refine ⟨hnext, hsubject, ?_⟩
  obtain ⟨s, answer, hexit, rfl, rfl⟩ := Transfer.exit_of_read hbusy hcall
  cases hvalue
  rcases hexit.byte hbuf hr hok hreach.metered (hreach.needOutput hbusy) hinput hclear hpending with
    ⟨b, hcopied, hchar⟩ | ⟨hcopied, hend, hfinishes⟩
  · refine .inl ⟨b, ?_, hchar.trans (by rw [show s.platform = t.platform from hplatform])⟩
    have hprefix : t.copied ++ [b] <+: t.curl.body := by
      rw [← hcopied, ← hbody]
      exact hfaithful.taken_prefix
    obtain ⟨rest, hrest⟩ := hprefix
    have hlater : s.left.rest = rest := by
      show s.left.curl.body.drop s.copied.length = rest
      rw [hbody, hcopied, ← hrest, List.drop_left]
    rw [hlater, Transfer.rest, ← hrest, List.append_assoc, List.drop_left]
    rfl
  · have hall : s.left.rest = [] := by
      have hlength := hfaithful.length_taken
      have haccepted := hcomplete hfinishes
      rw [Transfer.rest, List.drop_eq_nil_iff]
      show s.left.curl.body.length ≤ s.left.receiver.taken.length
      rw [hlength]
      show s.left.curl.body.length ≤ s.left.curl.accepted + s.left.ctrl.readOverflow.toNat
      omega
    refine .inr ⟨?_, hall, hend⟩
    rw [← hall, Transfer.rest, Transfer.rest, hbody]
    show t.curl.body.drop t.copied.length = t.curl.body.drop s.copied.length
    rw [hcopied]

/-- **What successive calls of `InputStream.read()` return**: the bytes that have not been
copied, one after another, as `char`s, and -1 behind the last. -/
theorem ByteReads.values_eq {platform : Platform} {rodata : Nat → UInt8} {t t' : Transfer}
    {rs : List BodyCall} {values : List Int} (h : ByteReads t rs values t')
    (hreach : Reached platform rodata t) (hinput : t.ctrl.state.doInput = true) :
    values = oneByOne (t.rest.map t.platform.charValue) rs.length := by
  induction h with
  | nil t => cases t.rest.map t.platform.charValue <;> rfl
  | @cons t t₁ t' r rs value values hbuf hone hok hclear hread hcomplete _ ih =>
    obtain ⟨hnext, hsubject, hstep⟩ :=
      inputRead_byte hreach hinput hbuf hone hok hclear hread hcomplete
    have hplatform : t₁.platform = t.platform := congrArg (·.2.2) hsubject
    have hrest := ih hnext ((congrArg Prod.fst hsubject).trans hinput)
    rw [hplatform] at hrest
    rcases hstep with ⟨b, hhead, hvalue⟩ | ⟨hnone, hstill, hvalue⟩
    · rw [hhead, hvalue, hrest]
      rfl
    · rw [hstill] at hrest
      rw [hnone, hvalue, hrest]
      rfl

theorem charValue_eq_iff (platform : Platform) (b : UInt8) :
    platform.charValue b = b.toNat ↔ platform.signedChar = false ∨ b < 128 := by
  unfold Platform.charValue
  split
  · rename_i h
    obtain ⟨hsigned, hle⟩ := h
    have hle : 128 ≤ b.toNat := hle
    refine ⟨fun hvalue => by omega, ?_⟩
    rintro (hunsigned | hlt)
    · rw [hsigned] at hunsigned
      cases hunsigned
    · have hlt : b.toNat < 128 := hlt
      omega
  · rename_i h
    refine ⟨fun _ => ?_, fun _ => rfl⟩
    cases hsigned : platform.signedChar with
    | false => exact .inl rfl
    | true =>
      right
      show b.toNat < 128
      exact Nat.not_le.mp fun hle => h ⟨hsigned, hle⟩

/-- Two streams of values return the same in `n` calls if the values agree as far as the
calls go. -/
theorem oneByOne_map_eq_iff {f g : UInt8 → Int} : ∀ (bytes : List UInt8) (n : Nat),
    oneByOne (bytes.map f) n = oneByOne (bytes.map g) n ↔ ∀ b ∈ bytes.take n, f b = g b
  | [], n => by simp
  | b :: bytes, 0 => by simp [oneByOne]
  | b :: bytes, n + 1 => by
      simp only [List.map_cons, oneByOne, List.cons.injEq, List.take_succ_cons, List.mem_cons,
        forall_eq_or_imp, oneByOne_map_eq_iff bytes n]

/-- **Reading byte by byte.**  After any calls, successive calls of `InputStream.read()`
return the bytes of the response that have not been copied, as numbers below 256, and -1
behind them, exactly when `char` is unsigned or every byte they get to is below 128. -/
theorem byte_reads_iff {platform : Platform} {rodata : Nat → UInt8} {t t' : Transfer}
    (hreach : Reached platform rodata t) (hinput : t.ctrl.state.doInput = true)
    {rs : List BodyCall} {values : List Int} (hreads : ByteReads t rs values t') :
    values = oneByOne (t.rest.map fun b => (b.toNat : Int)) rs.length ↔
      t.platform.signedChar = false ∨ ∀ b ∈ t.rest.take rs.length, b < 128 := by
  rw [hreads.values_eq hreach hinput, oneByOne_map_eq_iff]
  simp only [charValue_eq_iff]
  cases t.platform.signedChar <;> simp

/-- A call of `InputStream.read()` during which libcurl offers the response again. -/
def readByte : BodyCall where
  buf := none
  off := 0
  count := 1
  pause := ⟨[.body 3], some .ok⟩
  interrupted := false
  loop := ⟨⟨0, 0⟩, [quietIteration []]⟩
  interruptedAgain := false

/-- A platform whose `char` is signed. -/
def signedPlatform : Platform := { latinPlatform with signedChar := true }

def downloadingOn (platform : Platform) (response : List UInt8) : Transfer :=
  (runCalls [.nativeConfigure (configureSecond response)] (.fresh platform fun _ => 0)).1

theorem reached_downloadingOn (platform : Platform) (response : List UInt8) :
    Reached platform (fun _ => 0) (downloadingOn platform response) := by
  refine ⟨[.nativeConfigure (configureSecond response)], fun call hcall => ?_, rfl⟩
  rw [List.mem_singleton.mp hcall]
  refine ⟨trivial, ?_⟩
  simp [Call.All, Loop.All, configureSecond, configureDownload, quietIteration, Callback.FitsInt]

/-- A call during which libcurl goes on running does not find that the transfer is over. -/
theorem not_finishes_readByte (t : Transfer) : ¬ readByte.Finishes t := by
  rintro ⟨s, pass, -, hlast, -, running, hreturns, hover⟩
  have hit : pass.it = quietIteration [] := List.mem_singleton.mp (mem_of_last_pass hlast)
  rw [hit] at hreturns hover
  cases hreturns
  rcases hover with hover | hover <;> cases hover

/-- Two calls of which the first is offered the response, and the second all of it again. -/
theorem ByteReads.two {t t₁ t₂ : Transfer} {first second : Int}
    (h₁ : Transfer.inputRead quietCall readByte t = (t₁, some (.ok first)))
    (h₂ : Transfer.inputRead quietCall readByte t₁ = (t₂, some (.ok second))) :
    ByteReads t [readByte, readByte] [first, second] t₂ := by
  have hok : (Call.read readByte).All Callback.FitsInt := by
    simp [Call.All, Loop.All, Pause.All, readByte, quietIteration, Callback.FitsInt]
  have hclear : readByte.Undisturbed := ⟨rfl, by simp [readByte, quietIteration], rfl⟩
  exact .cons rfl rfl hok hclear h₁ (fun h => absurd h (not_finishes_readByte t))
    (.cons rfl rfl hok hclear h₂ (fun h => absurd h (not_finishes_readByte t₁)) (.nil t₂))

theorem byte_reads_unsigned : [65, 255] = oneByOne
    ((downloadingOn latinPlatform [65, 255, 66]).rest.map fun b => (b.toNat : Int)) 2 :=
  (byte_reads_iff (reached_downloadingOn latinPlatform [65, 255, 66]) rfl
    (ByteReads.two rfl rfl)).mpr (.inl rfl)

/-- Where `char` is signed, the second byte reads as the end of the response. -/
theorem not_byte_reads :
    (∃ t', ByteReads (downloadingOn signedPlatform [65, 255, 66]) [readByte, readByte] [65, -1] t') ∧
      [65, -1] ≠ oneByOne
        ((downloadingOn signedPlatform [65, 255, 66]).rest.map fun b => (b.toNat : Int)) 2 :=
  ⟨⟨_, ByteReads.two rfl rfl⟩, by decide⟩

end Chttpc
