import Chttpc.CallRules
import Chttpc.Redelivery

/-!
# Downloads

The bytes `write_callback` copies into Java arrays, in order, are the response
from its beginning: `Transfer.receiver` reads the transfer as a receiver that
takes the body ahead of libcurl, with `readOverflow` for the elements taken but
not accepted, and every call of `write_callback` is an `advance`, followed by a
`settle` if the chunk is accepted (`handle_body_receiver`).

This rests on the room in the array (`Room`), which the arguments of `read`
provide (`BodyCall.InRange`) and every call of `write_callback` uses up as far as
it copies (`Received`).
-/

namespace Chttpc
open Program Redelivery

/-- The length of a chunk fits in an `int`. -/
def Callback.FitsInt : Callback → Prop
  | .body n => n < 2 ^ 31
  | _ => True

/-! ## The array -/

section Overwrite
variable {buf bytes bytes' : List UInt8} {start : Int}

theorem length_overwrite (h : start.toNat + bytes.length ≤ buf.length) :
    (overwrite buf start bytes).length = buf.length := by
  simp only [overwrite, List.length_append, List.length_take, List.length_drop]
  omega

@[simp] theorem overwrite_nil : overwrite buf start [] = buf := by
  simp [overwrite]

/-- Bytes written one behind another are written in one piece. -/
theorem overwrite_overwrite (hstart : 0 ≤ start)
    (h : start.toNat + bytes.length ≤ buf.length) :
    overwrite (overwrite buf start bytes) (start + bytes.length) bytes' =
      overwrite buf start (bytes ++ bytes') := by
  have hoffset : (start + bytes.length).toNat = start.toNat + bytes.length := by omega
  have hlen : (buf.take start.toNat ++ bytes).length = start.toNat + bytes.length := by
    rw [List.length_append, List.length_take]
    omega
  rw [overwrite, overwrite, overwrite, hoffset, List.take_left' hlen, List.length_append,
    ← List.append_assoc, List.append_assoc _ bytes', ← hlen, ← List.drop_drop, List.drop_left, hlen,
    List.drop_drop, Nat.add_assoc, List.append_assoc _ bytes']

end Overwrite

namespace CurlData
variable {ctrl : CurlData}

/-- The array of the call under way has room for the bytes still asked for. -/
def Room (ctrl : CurlData) : Prop :=
  0 ≤ ctrl.countToRead ∧ (ctrl.countToRead ≠ 0 →
    match ctrl.bufferForReceiving with
    | some buf => 0 ≤ ctrl.readOffset ∧ ctrl.readOffset + ctrl.countToRead ≤ buf.length
    | none => ctrl.countToRead = 1)

/-- The bytes have been received into the array, for which there was room. -/
structure Received (before after : CurlData) (bytes : List UInt8) : Prop where
  fits : (bytes.length : Int) ≤ before.countToRead
  countToRead : after.countToRead = before.countToRead - bytes.length
  array : ∀ buf, before.bufferForReceiving = some buf →
    after.bufferForReceiving = some (overwrite buf before.readOffset bytes) ∧
      after.readOffset = before.readOffset + bytes.length
  single : before.bufferForReceiving = none → after.bufferForReceiving = none

/-- What `takeReceived` takes of the pending bytes: as many as there is room for. -/
theorem takeReceived_spec (platform : Platform) {ptr : List UInt8} (hroom : ctrl.Room)
    (hcount : ctrl.countToRead ≠ 0) (hptr : ptr ≠ []) :
    let taken := ctrl.takeReceived platform ptr ptr.length
    taken.count = min ctrl.countToRead ptr.length ∧ taken.bytes = ptr.take taken.count.toNat ∧
      ∀ overflow, Received ctrl
        { taken.ctrl with
          countToRead := ctrl.countToRead - taken.count
          readOverflow := overflow }
        taken.bytes := by
  have hlen : 0 < ptr.length := List.length_pos_iff.mpr hptr
  obtain ⟨hnonneg, hroom⟩ := hroom
  have hroom := hroom hcount
  unfold takeReceived
  cases hbuf : ctrl.bufferForReceiving with
  | none =>
    rw [hbuf] at hroom
    dsimp only at hroom ⊢
    have hone : (1 : Int) = min ctrl.countToRead ptr.length := by omega
    have hbytes : (ptr.take 1).length = 1 := by
      rw [List.length_take]
      omega
    refine ⟨hone, rfl, fun _ => ⟨?_, ?_, fun buf h => ?_, fun _ => rfl⟩⟩
    · rw [hbytes]
      omega
    · rw [hbytes]
      rfl
    · rw [hbuf] at h
      cases h
  | some buf =>
    rw [hbuf] at hroom
    dsimp only at hroom ⊢
    have hread : (if (ptr.length : Int) < ctrl.countToRead then (ptr.length : Int)
        else ctrl.countToRead) = min ctrl.countToRead ptr.length := by
      split <;> omega
    have hin : (⟨ctrl.readOffset, min ctrl.countToRead ptr.length⟩ : ArrayAccess).inBounds buf := by
      refine ⟨hroom.1, ?_, ?_⟩
      · dsimp only
        omega
      · dsimp only
        omega
    have hbytes : ((ptr.take (min ctrl.countToRead ptr.length).toNat).length : Int) =
        min ctrl.countToRead ptr.length := by
      rw [List.length_take]
      omega
    rw [hread, arrayWrite, if_pos hin]
    refine ⟨rfl, rfl, fun _ => ⟨?_, ?_, fun buf' h => ?_, fun h => ?_⟩⟩
    · dsimp only
      omega
    · dsimp only
      rw [hbytes]
    · rw [hbuf] at h
      cases h
      dsimp only
      rw [hbytes]
      exact ⟨rfl, rfl⟩
    · rw [hbuf] at h
      cases h

/-- **What `write_callback` does with a chunk**: it takes some bytes of it from
behind those it took before, and it either refuses the chunk or accepts it whole,
in which case none of its bytes is left. -/
theorem writeCallback_spec (platform : Platform) {chunk : List UInt8}
    (hlen : chunk.length < 2 ^ 31) (hoverflow : 0 ≤ ctrl.readOverflow) (hroom : ctrl.Room) :
    let moved := ctrl.writeCallback platform chunk
    Received ctrl moved.ctrl moved.bytes ∧
      moved.bytes <+: chunk.drop ctrl.readOverflow.toNat ∧
      ((moved.result = .pause ∧
          moved.ctrl.readOverflow = ctrl.readOverflow + moved.bytes.length) ∨
        (moved.result = .bytes chunk.length ∧
          chunk.length ≤ ctrl.readOverflow + moved.bytes.length ∧
          moved.ctrl.readOverflow = ctrl.readOverflow + moved.bytes.length - chunk.length)) := by
  have hint : toInt32 chunk.length = chunk.length := toInt32_of_nat hlen
  have hsize : platform.toSizeT chunk.length = chunk.length := platform.toSizeT_of_int hlen
  unfold writeCallback
  split
  · exact ⟨⟨hroom.1, by simp [setRecvPaused],
      fun buf h => ⟨by simp [setRecvPaused, h], by simp [setRecvPaused]⟩, id⟩,
      List.nil_prefix, .inl ⟨rfl, by simp [setRecvPaused]⟩⟩
  rename_i hcount
  dsimp only
  rw [hint, hsize]
  split
  · rename_i hcovered
    refine ⟨⟨hroom.1, by simp, fun buf h => by simp [h], id⟩, List.nil_prefix,
      .inr ⟨rfl, ?_, ?_⟩⟩
    · simpa using hcovered
    · simp
  rename_i hcovered
  have hptr : ((chunk.drop ctrl.readOverflow.toNat).length : Int) =
      chunk.length - ctrl.readOverflow := by
    rw [List.length_drop]
    omega
  have hne : chunk.drop ctrl.readOverflow.toNat ≠ [] := by
    rw [← List.length_pos_iff]
    omega
  rw [← hptr]
  obtain ⟨htaken, hbytes, hreceived⟩ := takeReceived_spec platform hroom hcount hne
  generalize ctrl.takeReceived platform (chunk.drop ctrl.readOverflow.toNat)
    (chunk.drop ctrl.readOverflow.toNat).length = taken at htaken hbytes hreceived ⊢
  have hnonneg := hroom.1
  have hlength : (taken.bytes.length : Int) = taken.count := by
    rw [hbytes, List.length_take]
    omega
  have hpre : taken.bytes <+: chunk.drop ctrl.readOverflow.toNat := by
    rw [hbytes]
    exact List.take_prefix _ _
  split
  · rename_i hwhole
    refine ⟨hreceived 0, hpre, .inr ⟨rfl, ?_, ?_⟩⟩
    · show (chunk.length : Int) ≤ ctrl.readOverflow + taken.bytes.length
      omega
    · show (0 : Int) = ctrl.readOverflow + taken.bytes.length - chunk.length
      omega
  · have hafter := hreceived (ctrl.readOverflow + taken.count)
    refine ⟨⟨hafter.fits, hafter.countToRead, hafter.array, hafter.single⟩, hpre,
      .inl ⟨rfl, ?_⟩⟩
    show ctrl.readOverflow + taken.count = _
    rw [hlength]

end CurlData
/-! ## The transfer as a receiver -/

namespace Transfer

/-- The transfer as a receiver that takes the body ahead of libcurl. -/
def receiver (t : Transfer) : Receiver UInt8 :=
  ⟨t.curl.body, t.curl.accepted, t.ctrl.readOverflow.toNat, t.copied⟩

end Transfer

/-- The transfer has copied the response faithfully so far. -/
structure Downloading (body : List UInt8) (t : Transfer) : Prop where
  response : t.curl.body = body ∨ t.curl.body = []
  overflow : 0 ≤ t.ctrl.readOverflow
  faithful : t.receiver.Faithful

namespace Downloading
variable {body : List UInt8} {t : Transfer} {n : Nat}

/-- **A call of `write_callback` is an `advance`**, with a `settle` behind it if the
chunk is accepted. -/
theorem receiver_receiveChunk (h : Downloading body t) (hroom : t.ctrl.Room) (hn : n < 2 ^ 31) :
    ∃ bytes, CurlData.Received t.ctrl (t.receiveChunk n).ctrl bytes ∧
      (t.receiveChunk n).copied = t.copied ++ bytes ∧
      0 ≤ (t.receiveChunk n).ctrl.readOverflow ∧
      t.receiver.settled + t.receiver.ahead + bytes.length ≤ t.receiver.stream.length ∧
      ((t.receiveChunk n).receiver = t.receiver.advance bytes.length ∨
        ∃ length ≤ t.receiver.ahead + bytes.length,
          (t.receiveChunk n).receiver = (t.receiver.advance bytes.length).settle length) := by
  have hchunk : (t.curl.offer n).length < 2 ^ 31 := by
    rw [Libcurl.offer, List.length_take]
    omega
  obtain ⟨hreceived, hpre, hresult⟩ :=
    t.ctrl.writeCallback_spec t.platform hchunk h.overflow hroom
  have hchunk_eq : t.receiveChunk n =
      { t with
        ctrl := (t.ctrl.writeCallback t.platform (t.curl.offer n)).ctrl
        curl := t.curl.afterWrite (t.curl.offer n).length
          (t.ctrl.writeCallback t.platform (t.curl.offer n)).result
        copied := t.copied ++ (t.ctrl.writeCallback t.platform (t.curl.offer n)).bytes } := rfl
  rw [hchunk_eq]
  generalize t.ctrl.writeCallback t.platform (t.curl.offer n) = moved at hreceived hpre hresult ⊢
  have hpre : moved.bytes <+: t.curl.body.drop (t.curl.accepted + t.ctrl.readOverflow.toNat) := by
    rw [← List.drop_drop]
    refine hpre.trans ?_
    rw [Libcurl.offer, List.drop_take]
    exact List.take_prefix _ _
  have hbytes := List.prefix_iff_eq_take.mp hpre
  have hinside : t.receiver.settled + t.receiver.ahead + moved.bytes.length ≤
      t.receiver.stream.length := by
    have hle := hpre.length_le
    rw [List.length_drop] at hle
    have hposition := h.faithful.inside
    simp only [Transfer.receiver] at hposition ⊢
    omega
  have hnonneg := h.overflow
  refine ⟨moved.bytes, hreceived, rfl, ?_, hinside, ?_⟩
  · dsimp only
    omega
  rcases hresult with ⟨hpause, hoverflow⟩ | ⟨haccept, hcovered, hoverflow⟩
  · have hahead : moved.ctrl.readOverflow.toNat =
        t.ctrl.readOverflow.toNat + moved.bytes.length := by omega
    left
    simp only [Transfer.receiver, Receiver.advance, hpause, Libcurl.afterWrite, hahead, ← hbytes]
  · have hahead : moved.ctrl.readOverflow.toNat =
        t.ctrl.readOverflow.toNat + moved.bytes.length - (t.curl.offer n).length := by omega
    refine .inr ⟨(t.curl.offer n).length, ?_, ?_⟩
    · show (t.curl.offer n).length ≤ t.ctrl.readOverflow.toNat + moved.bytes.length
      omega
    · simp only [Transfer.receiver, Receiver.advance, Receiver.settle, haccept, Libcurl.afterWrite,
        hahead, ← hbytes, if_pos]

theorem receiveChunk (h : Downloading body t) (hroom : t.ctrl.Room) (hn : n < 2 ^ 31) :
    Downloading body (t.receiveChunk n) := by
  obtain ⟨bytes, -, -, hoverflow, hinside, hstep⟩ := h.receiver_receiveChunk hroom hn
  refine ⟨?_, hoverflow, ?_⟩
  · show (Libcurl.afterWrite _ _ _).body = body ∨ (Libcurl.afterWrite _ _ _).body = []
    rw [Libcurl.afterWrite_eq]
    exact h.response
  · have hadvance := h.faithful.advance hinside
    rcases hstep with hstep | ⟨length, hlength, hstep⟩
    · rw [hstep]
      exact hadvance
    · rw [hstep]
      exact hadvance.settle hlength

/-- What is not about receiving does not matter. -/
theorem of_eq (h : Downloading body t) {t' : Transfer} (hbody : t'.curl.body = t.curl.body)
    (haccepted : t'.curl.accepted = t.curl.accepted)
    (hoverflow : t'.ctrl.readOverflow = t.ctrl.readOverflow) (hcopied : t'.copied = t.copied) :
    Downloading body t' := by
  refine ⟨by rw [hbody]; exact h.response, by rw [hoverflow]; exact h.overflow, ?_⟩
  rw [Transfer.receiver, hbody, haccepted, hoverflow, hcopied]
  exact h.faithful

theorem sendChunk (h : Downloading body t) (capacity : Nat) :
    Downloading body (t.sendChunk capacity) := by
  unfold Transfer.sendChunk
  dsimp only
  split
  · refine h.of_eq ?_ ?_ ?_ rfl
    · rw [Libcurl.afterRead_eq]
    · rw [Libcurl.afterRead_eq]
    · rw [CurlData.readCallback_eq]
  · exact h.of_eq rfl rfl rfl rfl

end Downloading

/-! ## One `read` -/

/-- The bytes of a `read` so far lie in its range of the array, one behind another
from its beginning, and the counters say so. -/
def BodyCall.Holds (r : BodyCall) (bytes : List UInt8) (ctrl : CurlData) : Prop :=
  (bytes.length : Int) ≤ r.count ∧ ctrl.countToRead = r.count - bytes.length ∧
    match r.buf with
    | some buf => ctrl.bufferForReceiving = some (overwrite buf r.off bytes) ∧
        ctrl.readOffset = r.off + bytes.length
    | none => ctrl.bufferForReceiving = none

namespace BodyCall
variable {r : BodyCall} {bytes bytes' : List UInt8} {ctrl ctrl' : CurlData}

/-- Nothing has been copied when the arguments are stored. -/
theorem Holds.beginRead (hr : r.InRange) (ctrl : CurlData) : r.Holds [] (ctrl.beginRead r) := by
  unfold InRange at hr
  refine ⟨?_, (Int.sub_zero r.count).symm, ?_⟩
  · show (0 : Int) ≤ r.count
    split at hr <;> omega
  · show match r.buf with
      | some buf => r.buf = some (overwrite buf r.off []) ∧ r.off = r.off + (0 : Nat)
      | none => r.buf = none
    cases r.buf with
    | none => rfl
    | some buf => simp

theorem Holds.room (hr : r.InRange) (h : r.Holds bytes ctrl) : ctrl.Room := by
  obtain ⟨hle, hcount, hbuf⟩ := h
  unfold InRange at hr
  refine ⟨by omega, fun hne => ?_⟩
  cases hrbuf : r.buf with
  | none =>
    rw [hrbuf] at hr hbuf
    rw [hbuf]
    dsimp only at hr ⊢
    omega
  | some buf =>
    rw [hrbuf] at hr hbuf
    obtain ⟨hreceiving, hoffset⟩ := hbuf
    obtain ⟨hoff, hnonneg, hin⟩ := hr
    have hlength : (overwrite buf r.off bytes).length = buf.length :=
      length_overwrite (by omega)
    rw [hreceiving]
    dsimp only
    rw [hlength]
    omega

theorem Holds.received (hr : r.InRange) (h : r.Holds bytes ctrl)
    (hreceived : CurlData.Received ctrl ctrl' bytes') : r.Holds (bytes ++ bytes') ctrl' := by
  obtain ⟨hle, hcount, hbuf⟩ := h
  have hfits := hreceived.fits
  have hafter := hreceived.countToRead
  unfold InRange at hr
  refine ⟨by rw [List.length_append]; omega, by rw [List.length_append]; omega, ?_⟩
  cases hrbuf : r.buf with
  | none =>
    rw [hrbuf] at hbuf
    exact hreceived.single hbuf
  | some buf =>
    rw [hrbuf] at hr hbuf
    obtain ⟨hreceiving, hoffset⟩ := hbuf
    obtain ⟨hoff, hnonneg, hin⟩ := hr
    obtain ⟨harray, hnext⟩ := hreceived.array _ hreceiving
    dsimp only
    rw [harray, hnext, hoffset, overwrite_overwrite hoff (by omega), List.length_append]
    exact ⟨rfl, by omega⟩

theorem Holds.of_eq (h : r.Holds bytes ctrl) (hcount : ctrl'.countToRead = ctrl.countToRead)
    (hbuf : ctrl'.bufferForReceiving = ctrl.bufferForReceiving)
    (hoffset : ctrl'.readOffset = ctrl.readOffset) : r.Holds bytes ctrl' := by
  unfold Holds at h ⊢
  rw [hcount, hbuf, hoffset]
  exact h

theorem Holds.of_io (h : r.Holds bytes ctrl) (hio : ctrl'.io = ctrl.io) : r.Holds bytes ctrl' :=
  h.of_eq (congrArg (·.countToRead) hio) (congrArg (·.bufferForReceiving) hio)
    (congrArg (·.readOffset) hio)

end BodyCall

/-- A `read` under way, which started when `before` had been copied. -/
structure Landing (body : List UInt8) (r : BodyCall) (before : List UInt8) (t : Transfer) : Prop
    extends Downloading body t where
  landed : ∃ bytes, t.copied = before ++ bytes ∧ r.Holds bytes t.ctrl

namespace Landing
variable {body before : List UInt8} {r : BodyCall} {t : Transfer}

protected theorem invariant (hr : r.InRange) :
    Transfer.Invariant (Landing body r before) Callback.FitsInt where
  io := by
    intro t ctrl hio h
    obtain ⟨bytes, hcopied, hholds⟩ := h.landed
    exact ⟨h.toDownloading.of_eq rfl rfl (congrArg (·.readOverflow) hio) rfl, bytes, hcopied,
      hholds.of_io hio⟩
  receive := by
    intro t n hn _ h
    obtain ⟨bytes, hcopied, hholds⟩ := h.landed
    have hroom := hholds.room hr
    obtain ⟨bytes', hreceived, hnext, -⟩ := h.toDownloading.receiver_receiveChunk hroom hn
    refine ⟨h.toDownloading.receiveChunk hroom hn, bytes ++ bytes', ?_, hholds.received hr hreceived⟩
    rw [hnext, hcopied, List.append_assoc]
  send := by
    intro t capacity _ _ h
    obtain ⟨bytes, hcopied, hholds⟩ := h.landed
    refine ⟨h.toDownloading.sendChunk capacity, bytes, hcopied, ?_⟩
    unfold Transfer.sendChunk
    dsimp only
    split
    · rw [CurlData.readCallback_eq]
      exact hholds.of_eq rfl rfl rfl
    · exact hholds.of_eq rfl rfl rfl
  wait := fun _ _ h => ⟨h.toDownloading.of_eq rfl rfl rfl rfl, h.landed⟩

theorem beginRead (hr : r.InRange) (h : Downloading body t) :
    Landing body r t.copied (t.entered.modify (·.beginRead r)) :=
  ⟨h.of_eq rfl rfl rfl rfl, [], (List.append_nil _).symm, .beginRead hr t.entered.ctrl⟩

protected theorem carries (hr : r.InRange) :
    Transfer.Carries (Landing body r before) Callback.FitsInt where
  toSteady := (Landing.invariant hr).toSteady
  resumeReceiving := fun _ h => ⟨h.toDownloading.of_eq rfl rfl rfl rfl, h.landed⟩
  resumeSending := fun _ h => ⟨h.toDownloading.of_eq rfl rfl rfl rfl, h.landed⟩
  needInput := fun _ h => ⟨h.toDownloading.of_eq rfl rfl rfl rfl, h.landed⟩
  needOutput := fun _ h => ⟨h.toDownloading.of_eq rfl rfl rfl rfl, h.landed⟩
  release := fun _ h => ⟨h.toDownloading.of_eq rfl rfl rfl rfl, h.landed⟩

/-- **A `read` that gets the lock lands its bytes**, at every instant. -/
theorem read (hr : r.InRange) (hok : (Call.read r).All Callback.FitsInt) (h : Downloading body t)
    (hbusy : t.ctrl.busy = false) : Landing body r t.copied (Transfer.read r t).1 :=
  (Landing.carries hr).read hok hbusy (beginRead hr h)

end Landing

/-- Nothing is asked for, so nothing is copied. -/
structure Idle (body before : List UInt8) (t : Transfer) : Prop extends Downloading body t where
  countToRead : t.ctrl.countToRead = 0
  copied : t.copied = before

namespace Idle
variable {body before : List UInt8} {t : Transfer}

protected theorem invariant : Transfer.Invariant (Idle body before) Callback.FitsInt where
  io := fun t ctrl hio h =>
    ⟨h.toDownloading.of_eq rfl rfl (congrArg (·.readOverflow) hio) rfl,
      (congrArg (·.countToRead) hio).trans h.countToRead, h.copied⟩
  receive := by
    intro t n hn _ h
    have hroom : t.ctrl.Room := ⟨Int.le_of_eq h.countToRead.symm, fun hne => absurd h.countToRead hne⟩
    obtain ⟨bytes, hreceived, hnext, -⟩ := h.toDownloading.receiver_receiveChunk hroom hn
    have hfits := hreceived.fits
    rw [h.countToRead] at hfits
    have hnil : bytes = [] := List.length_eq_zero_iff.mp (by omega)
    subst hnil
    refine ⟨h.toDownloading.receiveChunk hroom hn, ?_, ?_⟩
    · rw [hreceived.countToRead, h.countToRead]
      rfl
    · rw [hnext, List.append_nil, h.copied]
  send := by
    intro t capacity _ _ h
    refine ⟨h.toDownloading.sendChunk capacity, ?_, h.copied⟩
    unfold Transfer.sendChunk
    dsimp only
    split
    · rw [CurlData.readCallback_eq]
      exact h.countToRead
    · exact h.countToRead
  wait := fun _ _ h => ⟨h.toDownloading.of_eq rfl rfl rfl rfl, h.countToRead, h.copied⟩

theorem of_eq (h : Idle body before t) {t' : Transfer} (hcurl : t'.curl.body = t.curl.body)
    (haccepted : t'.curl.accepted = t.curl.accepted)
    (hoverflow : t'.ctrl.readOverflow = t.ctrl.readOverflow) (hcopied : t'.copied = t.copied)
    (hcount : t'.ctrl.countToRead = t.ctrl.countToRead) : Idle body before t' :=
  ⟨h.toDownloading.of_eq hcurl haccepted hoverflow hcopied, hcount.trans h.countToRead,
    hcopied.trans h.copied⟩

protected theorem carries : Transfer.Carries (Idle body before) Callback.FitsInt where
  toSteady := Idle.invariant.toSteady
  resumeReceiving := fun _ h => h.of_eq rfl rfl rfl rfl rfl
  resumeSending := fun _ h => h.of_eq rfl rfl rfl rfl rfl
  needInput := fun _ h => h.of_eq rfl rfl rfl rfl rfl
  needOutput := fun _ h => h.of_eq rfl rfl rfl rfl rfl
  release := fun _ h => h.of_eq rfl rfl rfl rfl rfl

theorem write {w : BodyCall} (hok : (Call.write w).All Callback.FitsInt)
    (h : Downloading body t) (hbusy : t.ctrl.busy = false) :
    Downloading body (Transfer.write w t).1 := by
  cases hgoal : t.ctrl.goalReached with
  | true =>
    rw [Transfer.write_closed hbusy hgoal]
    exact h.of_eq rfl rfl rfl rfl
  | false =>
    have hbegin : Idle body t.copied (t.entered.modify (·.beginWrite w)) :=
      ⟨h.of_eq rfl rfl rfl rfl, rfl, rfl⟩
    rw [Transfer.write_open hbusy hgoal]
    exact (Idle.carries.writeOpen hok hbegin).toDownloading

theorem closeOutput {c : Close} (hok : (Call.closeOutput c).All Callback.FitsInt)
    (h : Downloading body t) (hbusy : t.ctrl.busy = false) :
    Downloading body (Transfer.closeOutput c t).1 := by
  have hbegin : Idle body t.copied (t.entered.modify (·.beginClose)).setEof :=
    ⟨h.of_eq rfl rfl rfl rfl, rfl, rfl⟩
  exact (Idle.carries.closeOutput hok hbusy hbegin).toDownloading

end Idle

/-! ## Runs -/

theorem Transfer.Detached.downloading {t : Transfer} (h : t.Detached) (body : List UInt8) :
    Downloading body t := by
  refine ⟨.inr h.body, Int.le_of_eq h.readOverflow.symm, ?_, ?_⟩
  · show t.curl.accepted + t.ctrl.readOverflow.toNat ≤ t.curl.body.length
    rw [h.accepted, h.readOverflow, h.body]
    decide
  · show t.copied = t.curl.body.take _
    rw [h.copied, h.body, List.take_nil]

theorem Configure.attach_detached (c : Configure) {t : Transfer}
    (hstate : t.ctrl.state.attached = false) : c.attach t =
      { t with
        ctrl := { c.setCtrl t.ctrl with state := { (c.setCtrl t.ctrl).state with attached := true } }
        curl := (c.setCurl t.ctrl.outHeaders t.curl).addHandle c.response
        copied := []
        accesses := [] } := by
  have hattach : ¬ (c.setCtrl t.ctrl).state.attached = true := by
    show ¬ t.ctrl.state.attached = true
    rw [hstate]
    decide
  exact if_neg hattach

theorem Downloading.attach {t : Transfer} (c : Configure) (hstate : t.ctrl.state.attached = false)
    (hoverflow : t.ctrl.readOverflow = 0) : Downloading c.response (c.attach t) := by
  rw [c.attach_detached hstate]
  refine ⟨.inl rfl, ?_, ?_, ?_⟩
  · show 0 ≤ t.ctrl.readOverflow
    omega
  · show 0 + t.ctrl.readOverflow.toNat ≤ c.response.length
    rw [hoverflow]
    exact Nat.zero_le _
  · show [] = c.response.take (0 + t.ctrl.readOverflow.toNat)
    rw [hoverflow]
    rfl

theorem Idle.attach {t : Transfer} (c : Configure) (hstate : t.ctrl.state.attached = false)
    (hoverflow : t.ctrl.readOverflow = 0) (hcount : t.ctrl.countToRead = 0) :
    Idle c.response [] (c.attach t) := by
  refine ⟨.attach c hstate hoverflow, ?_, ?_⟩
  · rw [c.attach_detached hstate]
    exact hcount
  · rw [c.attach_detached hstate]

theorem Downloading.nativeConfigure {t : Transfer} (ht : t.Detached) (c : Configure)
    (hok : (Call.nativeConfigure c).All Callback.FitsInt) :
    Downloading c.response (Transfer.nativeConfigure c t).1 := by
  have hattached : t.ctrl.state.attached = false := congrArg StateBits.attached ht.state
  have hidle : Idle c.response t.copied (Transfer.nativeConfigure c t).1 := by
    refine Idle.carries.nativeConfigure hok ht.busy (fun _ => ?_) fun _ => ?_
    · exact ⟨(ht.downloading _).of_eq rfl rfl rfl rfl, rfl, rfl⟩
    · rw [ht.copied]
      exact Idle.attach c hattached ht.readOverflow rfl
  exact hidle.toDownloading

/-- What a call of a download may be. -/
def Call.Downloads : Call → Prop
  | .read r => r.InRange
  | .write _ | .closeOutput _ => True
  | _ => False

theorem Downloading.run {body : List UInt8} {call : Call} (hcall : call.Downloads)
    (hok : call.All Callback.FitsInt) : Keeps (Downloading body) call.run := by
  refine keeps_iff.mpr fun t h => ?_
  cases hbusy : t.ctrl.busy with
  | true =>
    obtain ⟨returned, hrun⟩ := call.run_taken hbusy
    rw [hrun]
    exact h.of_eq rfl rfl rfl rfl
  | false =>
    cases call with
    | read r => exact (Landing.read hcall hok h hbusy).toDownloading
    | write w => exact Idle.write hok h hbusy
    | closeOutput c => exact Idle.closeOutput hok h hbusy
    | _ => exact hcall.elim

/-- **Download fidelity.**  After one `nativeConfigure` of a detached handle, and any
calls of `read`, `write` and `closeOutput`, at every instant the bytes copied into
Java arrays are the beginning of the response, as many as libcurl has accepted and
`readOverflow` on top of that.

The bytes of one `read` lie in `buf[off, off + count)` from its beginning, and
`readOffset` and `countToRead` meet at its end throughout; a `read` that is refused
the lock copies nothing. -/
theorem download_fidelity {t₀ : Transfer} (h₀ : t₀.Detached) (c : Configure) (calls : List Call)
    (hcalls : ∀ call ∈ calls, call.Downloads)
    (hchunks : ∀ call ∈ .nativeConfigure c :: calls, call.All Callback.FitsInt) :
    let t := (runCalls (.nativeConfigure c :: calls) t₀).1
    t.copied <+: c.response ∧
      (t.copied.length : Int) = t.curl.accepted + t.ctrl.readOverflow ∧
      ∀ before r buf, calls = before ++ [.read r] → r.buf = some buf →
        ∀ s, runCalls (.nativeConfigure c :: before) t₀ = (s, some ()) →
          (s.ctrl.busy = true → t.copied = s.copied) ∧
          (s.ctrl.busy = false → ∃ bytes, t.copied = s.copied ++ bytes ∧
            (bytes.length : Int) ≤ r.count ∧
            t.ctrl.bufferForReceiving = some (overwrite buf r.off bytes) ∧
            t.ctrl.readOffset = r.off + bytes.length ∧
            t.ctrl.readOffset + t.ctrl.countToRead = r.off + r.count) := by
  have hrun : ∀ cs : List Call, (∀ call ∈ cs, call.Downloads) →
      (∀ call ∈ .nativeConfigure c :: cs, call.All Callback.FitsInt) →
      Downloading c.response (runCalls (.nativeConfigure c :: cs) t₀).1 := by
    intro cs hcs hok
    have hrest : Keeps (Downloading c.response) (forEach Call.run cs) :=
      Keeps.forEach fun call hcall => Downloading.run (hcs call hcall)
        (hok call (List.mem_cons_of_mem _ hcall))
    exact forEach_cons (Downloading.nativeConfigure h₀ c (hok _ List.mem_cons_self)) hrest
  intro t
  have ht : Downloading c.response t := hrun calls hcalls hchunks
  refine ⟨?_, ?_, ?_⟩
  · have hpre := ht.faithful.taken_prefix
    rcases ht.response with hbody | hbody
    · rw [← hbody]
      exact hpre
    · have hnil : t.copied = [] := by
        have hpre : t.copied <+: t.curl.body := hpre
        rw [hbody] at hpre
        exact List.prefix_nil.mp hpre
      rw [hnil]
      exact List.nil_prefix
  · have hlength : t.copied.length = t.curl.accepted + t.ctrl.readOverflow.toNat :=
      ht.faithful.length_taken
    have hnonneg := ht.overflow
    omega
  · rintro before r buf rfl hbuf s hs
    have hlast : t = (Transfer.read r s).1 := forEach_concat hs
    have hread : (Call.read r).Downloads := hcalls _ (by simp)
    have hok : (Call.read r).All Callback.FitsInt := hchunks _ (by simp)
    have hdownloading : Downloading c.response s := by
      have h := hrun before (fun call hcall => hcalls call (List.mem_append_left _ hcall))
        fun call hcall => hchunks call (by
          rcases List.mem_cons.mp hcall with rfl | hcall
          · exact List.mem_cons_self
          · exact List.mem_cons_of_mem _ (List.mem_append_left _ hcall))
      rwa [hs] at h
    refine ⟨fun hbusy => ?_, fun hbusy => ?_⟩
    · rw [hlast, Transfer.read, Transfer.acquire_taken hbusy]
    · have hlanding := Landing.read hread hok hdownloading hbusy
      rw [← hlast] at hlanding
      obtain ⟨bytes, hcopied, hfits, hcount, hlanded⟩ := hlanding.landed
      rw [hbuf] at hlanded
      refine ⟨bytes, hcopied, hfits, hlanded.1, hlanded.2, ?_⟩
      rw [hlanded.2, hcount]
      omega

/-- A configuration of a download: libcurl offers the response before it is read. -/
def configureDownload (response : List UInt8) : Configure where
  fixedLength := 0
  url := []
  urlLength := 0
  readTimeout := 0
  connTimeout := 0
  followRedirects := false
  doInput := true
  doOutput := false
  response
  urlBufferOk := true
  interrupted := false
  perform := ⟨[.body 9], some (.ok, 1)⟩
  messages := []
  loop := ⟨⟨0, 0⟩, [quietIteration []]⟩
  effectiveUrl := none
  newArrayOk := true

/-- A `read` of two bytes, when libcurl redelivers the response in the pieces. -/
def readTwo (pieces : List Callback) : BodyCall where
  buf := some [0, 0, 0]
  off := 1
  count := 2
  pause := ⟨pieces, some .ok⟩
  interrupted := false
  loop := ⟨⟨0, 0⟩, [quietIteration [.body 9]]⟩
  interruptedAgain := false

/-- Two `read`s of a response of five bytes: the first is offered all of it, the
second one byte of what the first has copied, and then three bytes. -/
def redeliveredReads : List Call :=
  [.read (readTwo [.body 5]), .read (readTwo [.body 1, .body 3])]

def redelivered : Transfer :=
  (runCalls (.nativeConfigure (configureDownload [10, 20, 30, 40, 50]) :: redeliveredReads)
    (.fresh latinPlatform fun _ => 0)).1

theorem download_fidelity_redelivered :
    redelivered.copied = [10, 20, 30, 40] ∧ redelivered.copied <+: [10, 20, 30, 40, 50] ∧
      (redelivered.copied.length : Int) =
        redelivered.curl.accepted + redelivered.ctrl.readOverflow := by
  have h := download_fidelity (detached_fresh latinPlatform fun _ => 0)
    (configureDownload [10, 20, 30, 40, 50]) redeliveredReads
    (by simp [redeliveredReads, Call.Downloads, BodyCall.InRange, readTwo])
    (by simp [redeliveredReads, Call.All, Loop.All, Pause.All, readTwo, configureDownload,
      quietIteration, Callback.FitsInt])
  exact ⟨rfl, h.1, h.2.1⟩

end Chttpc
