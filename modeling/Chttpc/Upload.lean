import Chttpc.BusyLock

/-!
# Uploads

`read_callback` hands libcurl the bytes of the `write` under way, from the front
of its region of the Java array.  Across a run, libcurl receives the handed-over
beginnings of the regions in the order of the calls, and it is told that the upload
is complete only when `closeOutput` has marked it so.

All of this holds whatever happens.  What a `write` returns is another matter: it
is the number of its bytes that were handed over only if the call has got the lock.
The exit of `write` for an upload that is complete keeps the lock, and the `write`
that comes after it is refused and returns `-1`.  `upload_fidelity_iff` says that
this is all there is: uploads are faithful exactly when every `write` finds the
lock free.
-/

namespace Chttpc
open Program

/-- The buffer offered to the read function has a size, which fits in an `int`. -/
def Callback.Sized : Callback → Prop
  | .upload capacity => 0 < capacity ∧ capacity < 2 ^ 31
  | _ => True

/-- The bytes a `write` is asked to send. -/
def BodyCall.region (w : BodyCall) : List UInt8 :=
  match w.buf with
  | some buf => Chttpc.region buf w.off w.count
  | none => [UInt8.ofNat (w.off % 256).toNat]

/-- A range that is inside the array has the length that is asked for. -/
theorem length_region_of_inBounds {buf : List UInt8} {access : ArrayAccess}
    (h : access.inBounds buf) :
    ((Chttpc.region buf access.start access.length).length : Int) = access.length := by
  obtain ⟨hstart, hlength, hend⟩ := h
  rw [Chttpc.region, List.length_take, List.length_drop]
  omega

theorem BodyCall.InRange.length_region {w : BodyCall} (h : w.InRange) :
    (w.region.length : Int) = w.count := by
  unfold BodyCall.InRange at h
  unfold BodyCall.region
  cases hbuf : w.buf with
  | none =>
    rw [hbuf] at h
    exact h.symm
  | some buf =>
    rw [hbuf] at h
    have hin : (⟨w.off, w.count⟩ : ArrayAccess).inBounds buf := h
    exact length_region_of_inBounds hin

/-- A beginning of a list, extended by what follows. -/
theorem append_take_prefix {α : Type} {l bytes : List α} (h : bytes <+: l) (n : Nat) :
    bytes ++ (l.drop bytes.length).take n <+: l := by
  obtain ⟨rest, rfl⟩ := h
  rw [List.drop_left]
  exact (List.prefix_append_right_inj bytes).mpr (List.take_prefix _ _)

/-- What sending depends on. -/
structure Outgoing where
  doneSending : Bool
  countToWrite : Int
  buffer : Option (List UInt8)
  offset : Int

namespace CurlData
variable {ctrl : CurlData}

def outgoing (ctrl : CurlData) : Outgoing :=
  ⟨ctrl.state.doneSending, ctrl.countToWrite, ctrl.bufferForSending, ctrl.writeOffset⟩

/-- The array of the call under way holds the bytes still to be sent. -/
def Stock (ctrl : CurlData) : Prop :=
  0 ≤ ctrl.countToWrite ∧ (ctrl.countToWrite ≠ 0 →
    match ctrl.bufferForSending with
    | some buf => 0 ≤ ctrl.writeOffset ∧ ctrl.writeOffset + ctrl.countToWrite ≤ buf.length
    | none => ctrl.countToWrite = 1)

/-- The bytes have been sent from the array, some of those in stock. -/
structure Sent (before after : CurlData) (bytes : List UInt8) (access : Option ArrayAccess) :
    Prop where
  nonempty : bytes ≠ []
  fits : (bytes.length : Int) ≤ before.countToWrite
  countToWrite : after.countToWrite = before.countToWrite - bytes.length
  buffer : after.bufferForSending = before.bufferForSending
  array : ∀ buf, before.bufferForSending = some buf →
    bytes = region buf before.writeOffset bytes.length ∧
      after.writeOffset = before.writeOffset + bytes.length ∧
      access = some ⟨before.writeOffset, bytes.length⟩
  single : before.bufferForSending = none →
    bytes = [UInt8.ofNat (before.writeOffset % 256).toNat] ∧
      after.writeOffset = before.writeOffset ∧ access = none

theorem placeBytes_spec {capacity : Nat} (hpos : 0 < capacity) (hint : capacity < 2 ^ 31)
    (hstock : ctrl.Stock) (hcount : ctrl.countToWrite ≠ 0) :
    let placed := ctrl.placeBytes capacity
    placed.count = placed.bytes.length ∧ placed.count = min (capacity : Int) ctrl.countToWrite ∧
      placed.count < 2 ^ 31 ∧ ∀ uploadedCount state, Sent ctrl
        { placed.ctrl with
          countToWrite := ctrl.countToWrite - placed.count, uploadedCount, state }
        placed.bytes placed.access := by
  obtain ⟨hnonneg, hstock⟩ := hstock
  have hstock := hstock hcount
  have hcapacity : toInt32 capacity = capacity := toInt32_of_nat hint
  unfold placeBytes
  cases hbuf : ctrl.bufferForSending with
  | none =>
    rw [hbuf] at hstock
    dsimp only at hstock ⊢
    refine ⟨rfl, by omega, by decide, fun _ _ => ⟨List.cons_ne_nil _ _, ?_, rfl, rfl, ?_, ?_⟩⟩
    · show (1 : Int) ≤ ctrl.countToWrite
      omega
    · intro buf h
      rw [hbuf] at h
      cases h
    · exact fun _ => ⟨rfl, rfl, rfl⟩
  | some buf =>
    rw [hbuf] at hstock
    dsimp only at hstock ⊢
    have hwritten : (if toInt32 capacity < ctrl.countToWrite then toInt32 capacity
        else ctrl.countToWrite) = min (capacity : Int) ctrl.countToWrite := by
      rw [hcapacity]
      split <;> omega
    have hin : (⟨ctrl.writeOffset, min (capacity : Int) ctrl.countToWrite⟩ :
        ArrayAccess).inBounds buf := by
      refine ⟨hstock.1, ?_, ?_⟩
      · dsimp only
        omega
      · dsimp only
        omega
    have hlength := length_region_of_inBounds hin
    dsimp only at hlength
    rw [hwritten, arrayRead, if_pos hin]
    refine ⟨hlength.symm, rfl, by omega, fun _ _ => ⟨?_, ?_, ?_, rfl, ?_, ?_⟩⟩
    · apply List.ne_nil_of_length_pos
      show 0 < (region buf ctrl.writeOffset (min (capacity : Int) ctrl.countToWrite)).length
      omega
    · dsimp only
      omega
    · dsimp only
      rw [hlength]
    · intro buf' h
      rw [hbuf] at h
      cases h
      dsimp only
      rw [hlength]
      exact ⟨rfl, rfl, rfl⟩
    · intro h
      rw [hbuf] at h
      cases h

theorem countUploaded_uploadedCount (hgoal : ctrl.uploadGoal ≠ 0) (written : Int) :
    (ctrl.countUploaded written).uploadedCount = toUInt64 (ctrl.uploadedCount + written) := by
  unfold countUploaded
  rw [if_neg hgoal]
  dsimp only
  split <;> rfl

/-- **What `read_callback` does with a buffer**: it declares the upload complete if
it is marked so, it pauses if nothing is in stock, and otherwise it hands over as many
bytes as the buffer takes. -/
theorem readCallback_spec {platform : Platform} {capacity : Nat} (hpos : 0 < capacity)
    (hint : capacity < 2 ^ 31)
    (hstock : ctrl.Stock) :
    let moved := ctrl.readCallback platform capacity
    (moved = ⟨ctrl.setSendPaused true, [], none, .bytes 0⟩ ∧ ctrl.state.doneSending = true) ∨
      (moved = ⟨ctrl.setSendPaused true, [], none, .pause⟩ ∧ ctrl.state.doneSending = false ∧
        ctrl.countToWrite = 0) ∨
      (moved.result = .bytes moved.bytes.length ∧ ctrl.state.doneSending = false ∧
        (moved.bytes.length : Int) = min (capacity : Int) ctrl.countToWrite ∧
        (ctrl.uploadGoal ≠ 0 →
          moved.ctrl.uploadedCount = toUInt64 (ctrl.uploadedCount + moved.bytes.length)) ∧
        Sent ctrl moved.ctrl moved.bytes moved.access) := by
  unfold readCallback
  split
  · exact .inl ⟨rfl, ‹_›⟩
  rename_i hdone
  rw [Bool.not_eq_true] at hdone
  split
  · exact .inr (.inl ⟨rfl, hdone, ‹_›⟩)
  rename_i hcount
  obtain ⟨hlength, hmin, hlt, hsent⟩ := placeBytes_spec hpos hint hstock hcount
  refine .inr (.inr ⟨?_, hdone, ?_, ?_, ?_⟩)
  · dsimp only
    rw [hlength, platform.toSizeT_of_int (by omega)]
  · dsimp only
    rw [← hlength, hmin]
  · intro hgoal
    have hplaced : (ctrl.placeBytes capacity).ctrl.uploadGoal = ctrl.uploadGoal ∧
        (ctrl.placeBytes capacity).ctrl.uploadedCount = ctrl.uploadedCount := by
      rw [placeBytes_eq]
      exact ⟨rfl, rfl⟩
    dsimp only
    rw [countUploaded_uploadedCount (by rw [hplaced.1]; exact hgoal), hplaced.2, hlength]
  · dsimp only
    rw [countUploaded_eq]
    exact hsent _ _

end CurlData

/-! ## The read function -/

/-- libcurl's read function asks for data, and not for the end of the upload. -/
def Transfer.accepts (t : Transfer) : Bool :=
  t.curl.attached && t.curl.readFunction == .readCallback && !t.ctrl.state.doneSending

/-- **A call of the read function** hands over as many bytes of the stock as the buffer
takes, if it is `read_callback` and the upload is not marked as complete. -/
theorem Transfer.sendChunk_spec {t : Transfer} (hattached : t.curl.attached = true)
    (hstock : t.ctrl.Stock) {capacity : Nat} (hpos : 0 < capacity) (hint : capacity < 2 ^ 31) :
    let t' := t.sendChunk capacity
    (t'.ctrl = t.ctrl.setSendPaused true ∧ t'.curl.uploaded = t.curl.uploaded ∧
        t'.accesses = t.accesses ∧ (t.accepts = true → t.ctrl.countToWrite = 0) ∧
        (t'.curl.endOfUpload = true → t.curl.endOfUpload = true ∨
          t.curl.readFunction = .eofCallback ∨ t.ctrl.state.doneSending = true)) ∨
      (t.accepts = true ∧ t'.curl.endOfUpload = t.curl.endOfUpload ∧ ∃ bytes access,
        t'.curl.uploaded = t.curl.uploaded ++ bytes ∧
        t'.accesses = t.accesses ++ access.toList ∧
        (bytes.length : Int) = min (capacity : Int) t.ctrl.countToWrite ∧
        (t.ctrl.uploadGoal ≠ 0 →
          t'.ctrl.uploadedCount = toUInt64 (t.ctrl.uploadedCount + bytes.length)) ∧
        CurlData.Sent t.ctrl t'.ctrl bytes access) := by
  unfold Transfer.sendChunk Transfer.accepts
  rw [hattached]
  cases hfunction : t.curl.readFunction with
  | eofCallback =>
    exact .inl ⟨rfl, rfl, List.append_nil _, (nomatch ·), fun _ => .inr (.inl rfl)⟩
  | readCallback =>
    dsimp only
    rcases CurlData.readCallback_spec hpos hint hstock with
      ⟨hmoved, hdone⟩ | ⟨hmoved, -, hcount⟩ | ⟨hresult, hdone, hlength, hcounted, hsent⟩
    · rw [hmoved, hdone]
      exact .inl ⟨rfl, rfl, List.append_nil _, (nomatch ·), fun _ => .inr (.inr rfl)⟩
    · rw [hmoved]
      exact .inl ⟨rfl, rfl, List.append_nil _, fun _ => hcount, .inl⟩
    · generalize t.ctrl.readCallback t.platform capacity = moved at hresult hlength hcounted hsent ⊢
      obtain ⟨k, hk⟩ :=
        Nat.exists_eq_succ_of_ne_zero (List.length_eq_zero_iff.not.mpr hsent.nonempty)
      have hafter : t.curl.afterRead moved.bytes moved.result =
          { t.curl with uploaded := t.curl.uploaded ++ moved.bytes } := by
        rw [hresult, hk]
        rfl
      rw [hafter, hdone]
      exact .inr ⟨rfl, rfl, moved.bytes, moved.access, rfl, rfl, hlength, hcounted, hsent⟩

/-- libcurl is told that the upload is complete only once it is marked so, which is
for `closing` to happen. -/
structure Uploading (closing : Prop) (t : Transfer) : Prop where
  eof : t.curl.attached = true → t.curl.readFunction = .eofCallback →
    t.ctrl.state.doneSending = true
  ended : t.curl.endOfUpload = true → t.ctrl.state.doneSending = true
  closing : t.ctrl.state.doneSending = true → closing

namespace Uploading
variable {closing : Prop} {t : Transfer}

theorem of_eq (h : Uploading closing t) {t' : Transfer}
    (hattached : t'.curl.attached = t.curl.attached)
    (hfunction : t'.curl.readFunction = t.curl.readFunction)
    (hended : t'.curl.endOfUpload = t.curl.endOfUpload)
    (hdone : t'.ctrl.state.doneSending = t.ctrl.state.doneSending) : Uploading closing t' := by
  refine ⟨?_, ?_, ?_⟩
  · rw [hattached, hfunction, hdone]
    exact h.eof
  · rw [hended, hdone]
    exact h.ended
  · rw [hdone]
    exact h.closing

theorem receiveChunk (h : Uploading closing t) (n : Nat) : Uploading closing (t.receiveChunk n) := by
  unfold Transfer.receiveChunk
  dsimp only
  refine h.of_eq ?_ ?_ ?_ ?_
  · rw [Libcurl.afterWrite_eq]
  · rw [Libcurl.afterWrite_eq]
  · rw [Libcurl.afterWrite_eq]
  · rw [CurlData.writeCallback_eq]

/-- A call of the read function hands over bytes of the stock, or nothing. -/
theorem sendChunk (h : Uploading closing t) (hattached : t.curl.attached = true)
    (hstock : t.ctrl.Stock) {capacity : Nat} (hpos : 0 < capacity) (hint : capacity < 2 ^ 31) :
    Uploading closing (t.sendChunk capacity) ∧ ∃ bytes access,
      (t.sendChunk capacity).curl.uploaded = t.curl.uploaded ++ bytes ∧
      (t.sendChunk capacity).accesses = t.accesses ++ access.toList ∧
      (((t.sendChunk capacity).ctrl = t.ctrl.setSendPaused true ∧ bytes = [] ∧ access = none) ∨
        CurlData.Sent t.ctrl (t.sendChunk capacity).ctrl bytes access) := by
  have hdone : (t.sendChunk capacity).ctrl.state.doneSending = t.ctrl.state.doneSending := by
    unfold Transfer.sendChunk
    dsimp only
    split
    · rw [CurlData.readCallback_eq]
    · rfl
  have hcurl : (t.sendChunk capacity).curl.attached = t.curl.attached ∧
      (t.sendChunk capacity).curl.readFunction = t.curl.readFunction := by
    unfold Transfer.sendChunk
    dsimp only
    rw [Libcurl.afterRead_eq]
    exact ⟨rfl, rfl⟩
  rcases t.sendChunk_spec hattached hstock hpos hint with
    ⟨hctrl, huploaded, haccesses, -, hended⟩ |
      ⟨-, hended, bytes, access, huploaded, haccesses, -, -, hsent⟩
  · refine ⟨⟨?_, fun hend => ?_, ?_⟩, [], none, by rw [huploaded, List.append_nil],
      by rw [haccesses]; exact (List.append_nil _).symm, .inl ⟨hctrl, rfl, rfl⟩⟩
    · rw [hcurl.1, hcurl.2, hdone]
      exact h.eof
    · rw [hdone]
      rcases hended hend with hend | hend | hend
      · exact h.ended hend
      · exact h.eof hattached hend
      · exact hend
    · rw [hdone]
      exact h.closing
  · exact ⟨h.of_eq hcurl.1 hcurl.2 hended hdone, bytes, access, huploaded, haccesses, .inr hsent⟩

end Uploading

/-! ## What a call has to hand over -/

/-- The supply of a call: how the handle looks when some bytes have been handed over
in the call, and the accesses the call may make. -/
structure Supply (after : List UInt8 → CurlData → Prop) (covers : ArrayAccess → Prop) : Prop where
  stock : ∀ {bytes ctrl}, after bytes ctrl → ctrl.Stock
  sent : ∀ {bytes bytes' ctrl ctrl' access}, after bytes ctrl →
    CurlData.Sent ctrl ctrl' bytes' access →
      after (bytes ++ bytes') ctrl' ∧ ∀ a ∈ access.toList, covers a
  of_eq : ∀ {bytes} {ctrl ctrl' : CurlData}, after bytes ctrl →
    ctrl'.outgoing = ctrl.outgoing → after bytes ctrl'

/-- A call that sends nothing. -/
def NothingSent (bytes : List UInt8) (ctrl : CurlData) : Prop :=
  bytes = [] ∧ ctrl.countToWrite = 0

theorem supply_nothing : Supply NothingSent fun _ => False where
  stock := fun h => ⟨Int.le_of_eq h.2.symm, fun hne => absurd h.2 hne⟩
  sent := by
    intro bytes bytes' ctrl ctrl' access h hsent
    have hfits := hsent.fits
    rw [h.2] at hfits
    exact absurd (List.length_eq_zero_iff.mp (by omega)) hsent.nonempty
  of_eq := fun h heq => ⟨h.1, (congrArg Outgoing.countToWrite heq).trans h.2⟩

/-- The access stays in the region of the `write`. -/
def BodyCall.Covers (w : BodyCall) (access : ArrayAccess) : Prop :=
  w.off ≤ access.start ∧ 0 ≤ access.length ∧ access.start + access.length ≤ w.off + w.count

/-- The bytes of a `write` handed over so far are the beginning of its region, and
the counters say so. -/
def BodyCall.Fed (w : BodyCall) (bytes : List UInt8) (ctrl : CurlData) : Prop :=
  bytes <+: w.region ∧ ctrl.countToWrite = w.count - bytes.length ∧
    ctrl.bufferForSending = w.buf ∧
    match w.buf with
    | some _ => ctrl.writeOffset = w.off + bytes.length
    | none => ctrl.writeOffset = w.off

namespace BodyCall
variable {w : BodyCall} {bytes bytes' : List UInt8} {ctrl ctrl' : CurlData}
  {access : Option ArrayAccess}

theorem Fed.length_le (hw : w.InRange) (h : w.Fed bytes ctrl) : (bytes.length : Int) ≤ w.count := by
  have hle := h.1.length_le
  have hregion := hw.length_region
  omega

theorem Fed.stock (hw : w.InRange) (h : w.Fed bytes ctrl) : ctrl.Stock := by
  have hle := h.length_le hw
  obtain ⟨-, hcount, hbuffer, hoffset⟩ := h
  unfold InRange at hw
  refine ⟨by omega, fun hne => ?_⟩
  rw [hbuffer]
  cases hbuf : w.buf with
  | none =>
    rw [hbuf] at hw
    dsimp only at hw ⊢
    omega
  | some buf =>
    rw [hbuf] at hw hoffset
    dsimp only at hw hoffset ⊢
    omega

theorem Fed.sent (hw : w.InRange) (h : w.Fed bytes ctrl)
    (hsent : CurlData.Sent ctrl ctrl' bytes' access) :
    w.Fed (bytes ++ bytes') ctrl' ∧ ∀ a ∈ access.toList, w.Covers a := by
  have hle := h.length_le hw
  obtain ⟨hpre, hcount, hbuffer, hoffset⟩ := h
  have hfits := hsent.fits
  have hafter := hsent.countToWrite
  have hlen : ((bytes ++ bytes').length : Int) = bytes.length + bytes'.length := by
    rw [List.length_append]
    omega
  have hcount' : ctrl'.countToWrite = w.count - (bytes ++ bytes').length := by omega
  have hbuffer' : ctrl'.bufferForSending = w.buf := hsent.buffer.trans hbuffer
  unfold Fed
  cases hbuf : w.buf with
  | none =>
    rw [hbuf] at hbuffer hoffset
    obtain ⟨hbytes', hoffset', rfl⟩ := hsent.single hbuffer
    have hone : bytes'.length = 1 := by rw [hbytes', List.length_singleton]
    have hnil : bytes = [] := by
      rw [InRange, hbuf] at hw
      exact List.length_eq_zero_iff.mp (by dsimp only at hw; omega)
    have hregion : w.region = bytes' := by
      rw [region, hbuf, hbytes', hoffset]
    subst hnil
    rw [hbuf] at hbuffer'
    refine ⟨⟨?_, hcount', hbuffer', hoffset'.trans hoffset⟩, nofun⟩
    rw [hregion]
    exact List.prefix_refl _
  | some buf =>
    rw [hbuf] at hbuffer hoffset hbuffer'
    obtain ⟨hbytes', hoffset', rfl⟩ := hsent.array buf hbuffer
    rw [InRange, hbuf] at hw
    dsimp only at hw hoffset
    refine ⟨⟨?_, hcount', hbuffer', ?_⟩, ?_⟩
    · have hregion : bytes' = (w.region.drop bytes.length).take bytes'.length := by
        have hnext : (w.off + bytes.length).toNat = w.off.toNat + bytes.length := by omega
        rw [region, hbuf]
        dsimp only
        rw [Chttpc.region, List.drop_take, List.drop_drop, List.take_take, ← hnext, ← hoffset,
          min_eq_left (by omega)]
        exact hbytes'
      rw [hregion]
      exact append_take_prefix hpre _
    · dsimp only
      omega
    · intro a ha
      obtain rfl : a = ⟨ctrl.writeOffset, bytes'.length⟩ := by simpa using ha
      refine ⟨?_, ?_, ?_⟩
      · dsimp only
        omega
      · dsimp only
        omega
      · dsimp only
        omega

theorem InRange.supply (hw : w.InRange) : Supply w.Fed w.Covers where
  stock := Fed.stock hw
  sent := Fed.sent hw
  of_eq := by
    intro bytes ctrl ctrl' h heq
    obtain ⟨-, hcount, hbuffer, hoffset⟩ := Outgoing.mk.inj heq
    unfold Fed at h ⊢
    rw [hcount, hbuffer, hoffset]
    exact h

end BodyCall

/-! ## One call -/

/-- A call under way, which started when `before` had been handed over and
`accesses` had been made. -/
structure Feeding (closing : Prop) (after : List UInt8 → CurlData → Prop)
    (covers : ArrayAccess → Prop) (before : List UInt8) (accesses : List ArrayAccess)
    (t : Transfer) : Prop extends Uploading closing t where
  fed : ∃ bytes, t.curl.uploaded = before ++ bytes ∧ after bytes t.ctrl
  covered : ∃ new, t.accesses = accesses ++ new ∧ ∀ access ∈ new, covers access

namespace Feeding
open Program
variable {closing : Prop} {after : List UInt8 → CurlData → Prop} {covers : ArrayAccess → Prop}
  {before : List UInt8} {accesses : List ArrayAccess} {t : Transfer}

theorem modify (hsupply : Supply after covers)
    (h : Feeding closing after covers before accesses t) {f : CurlData → CurlData}
    (hf : (f t.ctrl).outgoing = t.ctrl.outgoing) :
    Feeding closing after covers before accesses (t.modify f) := by
  obtain ⟨bytes, huploaded, hafter⟩ := h.fed
  exact ⟨h.toUploading.of_eq rfl rfl rfl (congrArg Outgoing.doneSending hf),
    ⟨bytes, huploaded, hsupply.of_eq hafter hf⟩, h.covered⟩

/-- **The supply is handed over in order**, whatever happens. -/
protected theorem invariant (hsupply : Supply after covers) :
    Transfer.Invariant (Feeding closing after covers before accesses) Callback.Sized where
  io := by
    intro t ctrl hio h
    have hctrl : ctrl.io.outgoing = t.ctrl.io.outgoing := congrArg CurlData.outgoing hio
    exact h.modify (f := fun _ => ctrl) hsupply hctrl
  receive := by
    intro t n _ _ h
    obtain ⟨bytes, huploaded, hafter⟩ := h.fed
    refine ⟨h.toUploading.receiveChunk n, ⟨bytes, ?_, ?_⟩, h.covered⟩
    · show (Libcurl.afterWrite _ _ _).uploaded = _
      rw [Libcurl.afterWrite_eq]
      exact huploaded
    · show after bytes (CurlData.writeCallback _ _ _).ctrl
      rw [CurlData.writeCallback_eq]
      exact hsupply.of_eq hafter rfl
  send := by
    intro t capacity hok hattached h
    obtain ⟨bytes, huploaded, hafter⟩ := h.fed
    obtain ⟨new, haccesses, hcovered⟩ := h.covered
    obtain ⟨hnext, bytes', access, huploaded', haccesses', hmoved⟩ :=
      h.toUploading.sendChunk hattached (hsupply.stock hafter) hok.1 hok.2
    have hfed : after (bytes ++ bytes') (t.sendChunk capacity).ctrl ∧
        ∀ a ∈ access.toList, covers a := by
      rcases hmoved with ⟨hctrl, rfl, rfl⟩ | hsent
      · rw [hctrl, List.append_nil]
        exact ⟨hsupply.of_eq hafter rfl, nofun⟩
      · exact hsupply.sent hafter hsent
    refine ⟨hnext, ⟨bytes ++ bytes', ?_, hfed.1⟩, new ++ access.toList, ?_, ?_⟩
    · rw [huploaded', huploaded, List.append_assoc]
    · rw [haccesses', haccesses, List.append_assoc]
    · intro a ha
      exact (List.mem_append.mp ha).elim (hcovered a) (hfed.2 a)
  wait := fun _ _ h => ⟨h.toUploading.of_eq rfl rfl rfl rfl, h.fed, h.covered⟩

protected theorem carries (hsupply : Supply after covers) :
    Transfer.Carries (Feeding closing after covers before accesses) Callback.Sized where
  toSteady := (Feeding.invariant hsupply).toSteady
  resumeReceiving := by
    intro t h
    have h := h.modify (f := (·.setRecvPaused false)) hsupply rfl
    exact ⟨h.toUploading.of_eq rfl rfl rfl rfl, h.fed, h.covered⟩
  resumeSending := by
    intro t h
    have h := h.modify (f := (·.setSendPaused false)) hsupply rfl
    exact ⟨h.toUploading.of_eq rfl rfl rfl rfl, h.fed, h.covered⟩
  needInput := fun _ h => h.modify hsupply rfl
  needOutput := fun _ h => h.modify hsupply rfl
  release := fun _ h => h.modify hsupply rfl

/-- The methods that send nothing begin by asking for nothing. -/
theorem nothing (h : Uploading closing t) (hcount : t.ctrl.countToWrite = 0) :
    Feeding closing NothingSent (fun _ => False) t.curl.uploaded t.accesses t :=
  ⟨h, ⟨[], (List.append_nil _).symm, rfl, hcount⟩, [], (List.append_nil _).symm, nofun⟩

theorem write {w : BodyCall} (hw : w.InRange) (hok : (Call.write w).All Callback.Sized)
    (h : Uploading closing t) (hbusy : t.ctrl.busy = false) (hgoal : t.ctrl.goalReached = false) :
    Feeding closing w.Fed w.Covers t.curl.uploaded t.accesses (Transfer.write w t).1 := by
  have hbegin : Feeding closing w.Fed w.Covers t.curl.uploaded t.accesses
      (t.entered.modify (·.beginWrite w)) := by
    refine ⟨h.of_eq rfl rfl rfl rfl, ⟨[], (List.append_nil _).symm, ?_⟩, [],
      (List.append_nil _).symm, nofun⟩
    refine ⟨List.nil_prefix, (Int.sub_zero w.count).symm, rfl, ?_⟩
    cases w.buf with
    | none => exact rfl
    | some buf => exact (Int.add_zero w.off).symm
  rw [Transfer.write_open hbusy hgoal]
  exact (Feeding.carries hw.supply).writeOpen hok hbegin

theorem read {r : BodyCall} (hok : (Call.read r).All Callback.Sized) (h : Uploading closing t)
    (hbusy : t.ctrl.busy = false) :
    Feeding closing NothingSent (fun _ => False) t.curl.uploaded t.accesses
      (Transfer.read r t).1 := by
  have hbegin : Uploading closing (t.entered.modify (·.beginRead r)) := h.of_eq rfl rfl rfl rfl
  exact (Feeding.carries supply_nothing).read hok hbusy (nothing hbegin rfl)

theorem closeOutput {c : Close} (hok : (Call.closeOutput c).All Callback.Sized)
    (hclosing : closing) (hbusy : t.ctrl.busy = false) :
    Feeding closing NothingSent (fun _ => False) t.curl.uploaded t.accesses
      (Transfer.closeOutput c t).1 := by
  have hbegin : Uploading closing (t.entered.modify (·.beginClose)).setEof :=
    ⟨fun _ _ => rfl, fun _ => rfl, fun _ => hclosing⟩
  exact (Feeding.carries supply_nothing).closeOutput hok hbusy (nothing hbegin rfl)

end Feeding

/-! ## Runs -/

/-- What a call that has come as far as `t'` has handed over: the first
`count - countToWrite` bytes of a `write`.  A `write` that is refused the lock, or
turned away at the goal, does not get to store its arguments. -/
def Call.handedOver (call : Call) (t t' : Transfer) : List UInt8 :=
  match call with
  | .write w =>
      if t.ctrl.busy || t.ctrl.goalReached then []
      else w.region.take (w.count - t'.ctrl.countToWrite).toNat
  | _ => []

/-- A call that is refused the lock hands nothing over. -/
theorem Call.handedOver_taken {call : Call} {t t' : Transfer} (hbusy : t.ctrl.busy = true) :
    call.handedOver t t' = [] := by
  cases call with
  | write w => rw [Call.handedOver, hbusy, Bool.true_or, if_pos rfl]
  | _ => rfl

/-- What calls have handed over, one after another. -/
def handedOver : List Call → Transfer → List UInt8
  | [], _ => []
  | call :: calls, t =>
      match call.run t with
      | (t', some _) => call.handedOver t t' ++ handedOver calls t'
      | (t', none) => call.handedOver t t'

/-- What a call of an upload may be. -/
def Call.Uploads : Call → Prop
  | .write w => w.InRange
  | .read _ | .closeOutput _ => True
  | _ => False

/-- A call has added to the upload what it has handed over, and it has asked for
ranges of its own region only. -/
structure Call.Adds (call : Call) (t t' : Transfer) : Prop where
  uploaded : t'.curl.uploaded = t.curl.uploaded ++ call.handedOver t t'
  accesses : ∃ new, t'.accesses = t.accesses ++ new ∧
    ∀ access ∈ new, ∃ w, call = .write w ∧ w.Covers access

namespace Call.Adds
variable {call : Call} {t t' : Transfer}

/-- A call that leaves the upload alone. -/
theorem nothing (hhanded : call.handedOver t t' = [])
    (huploaded : t'.curl.uploaded = t.curl.uploaded) (haccesses : t'.accesses = t.accesses) :
    call.Adds t t' := by
  refine ⟨?_, [], by rw [haccesses, List.append_nil], nofun⟩
  rw [hhanded, huploaded, List.append_nil]

theorem of_nothing {closing : Prop} (hhanded : call.handedOver t t' = [])
    (h : Feeding closing NothingSent (fun _ => False) t.curl.uploaded t.accesses t') :
    call.Adds t t' := by
  obtain ⟨bytes, huploaded, rfl, -⟩ := h.fed
  obtain ⟨new, haccesses, hcovered⟩ := h.covered
  have hnew : new = [] := List.eq_nil_iff_forall_not_mem.mpr hcovered
  subst hnew
  exact nothing hhanded (by rw [huploaded, List.append_nil]) (by rw [haccesses, List.append_nil])

theorem of_fed {closing : Prop} {w : BodyCall} (hbusy : t.ctrl.busy = false)
    (hgoal : t.ctrl.goalReached = false)
    (h : Feeding closing w.Fed w.Covers t.curl.uploaded t.accesses t') :
    (Call.write w).Adds t t' := by
  obtain ⟨bytes, huploaded, hfed⟩ := h.fed
  obtain ⟨new, haccesses, hcovered⟩ := h.covered
  refine ⟨?_, new, haccesses, fun access haccess => ⟨w, rfl, hcovered access haccess⟩⟩
  have hhanded : (Call.write w).handedOver t t' =
      w.region.take (w.count - t'.ctrl.countToWrite).toNat := by
    rw [Call.handedOver, hbusy, hgoal]
    rfl
  have hlength : (w.count - t'.ctrl.countToWrite).toNat = bytes.length := by
    have hcount := hfed.2.1
    omega
  rw [hhanded, hlength, huploaded, ← List.prefix_iff_eq_take.mp hfed.1]

end Call.Adds

/-- **A call of an upload** adds what it has handed over. -/
theorem Uploading.run {closing : Prop} {call : Call} {t : Transfer} (hcall : call.Uploads)
    (hok : call.All Callback.Sized) (hclosing : ∀ c, call = .closeOutput c → closing)
    (h : Uploading closing t) : Uploading closing (call.run t).1 ∧ call.Adds t (call.run t).1 := by
  cases hbusy : t.ctrl.busy with
  | true =>
    obtain ⟨returned, hrun⟩ := call.run_taken hbusy
    rw [hrun]
    exact ⟨h.of_eq rfl rfl rfl rfl, .nothing (Call.handedOver_taken hbusy) rfl rfl⟩
  | false =>
    cases call with
    | read r =>
      have hfeeding := Feeding.read hok h hbusy
      exact ⟨hfeeding.toUploading, .of_nothing rfl hfeeding⟩
    | closeOutput c =>
      have hfeeding := Feeding.closeOutput (t := t) hok (hclosing c rfl) hbusy
      exact ⟨hfeeding.toUploading, .of_nothing rfl hfeeding⟩
    | write w =>
      show Uploading closing (Transfer.write w t).1 ∧ (Call.write w).Adds t (Transfer.write w t).1
      cases hgoal : t.ctrl.goalReached with
      | true =>
        rw [Transfer.write_closed hbusy hgoal]
        exact ⟨h.of_eq rfl rfl rfl rfl, .nothing (by rw [Call.handedOver, hgoal, Bool.or_true]; rfl)
          rfl rfl⟩
      | false =>
        have hfeeding := Feeding.write hcall hok h hbusy hgoal
        exact ⟨hfeeding.toUploading, .of_fed hbusy hgoal hfeeding⟩
    | _ => exact hcall.elim

theorem Feeding.attach {closing : Prop} {t : Transfer} {c : Configure} (hout : c.doOutput = true)
    (hstate : t.ctrl.state = .zero) (hcount : t.ctrl.countToWrite = 0) :
    Feeding closing NothingSent (fun _ => False) [] [] (c.attach t) := by
  have hdone : t.ctrl.state.doneSending ≠ true := by
    rw [hstate]
    decide
  have hattach : ¬ (c.setCtrl t.ctrl).state.attached = true := by
    show ¬ t.ctrl.state.attached = true
    rw [hstate]
    decide
  have hfunction : (c.setCurl t.ctrl.outHeaders t.curl).readFunction = .readCallback := if_pos hout
  unfold Configure.attach
  rw [if_neg hattach]
  refine ⟨⟨fun _ heof => ?_, nofun, fun h => absurd h hdone⟩, ⟨[], rfl, rfl, hcount⟩, [], rfl, nofun⟩
  have heof : (c.setCurl t.ctrl.outHeaders t.curl).readFunction = .eofCallback := heof
  rw [hfunction] at heof
  cases heof

/-- **The configuration of an upload** hands nothing over. -/
theorem Feeding.nativeConfigure {closing : Prop} {t : Transfer} (ht : t.Detached) {c : Configure}
    (hout : c.doOutput = true) (hok : (Call.nativeConfigure c).All Callback.Sized) :
    Feeding closing NothingSent (fun _ => False) [] [] (Transfer.nativeConfigure c t).1 := by
  refine (Feeding.carries supply_nothing).nativeConfigure hok ht.busy (fun _ => ?_) fun _ =>
    Feeding.attach hout ht.state rfl
  have hdone : t.ctrl.state.doneSending ≠ true := by
    rw [ht.state]
    decide
  refine ⟨⟨fun hattached => ?_, fun hended => ?_, fun h => absurd h hdone⟩,
    ⟨[], ht.uploaded, rfl, rfl⟩, [], ht.accesses, nofun⟩
  · cases ht.attached.symm.trans hattached
  · cases ht.endOfUpload.symm.trans hended

/-- A call that adds what it has handed over, and others after it. -/
theorem Uploading.cons {closing : Prop} {call : Call} {calls : List Call} {t : Transfer}
    (h : Uploading closing (call.run t).1) (hadds : call.Adds t (call.run t).1)
    (hrest : ∀ t', Uploading closing t' → Uploading closing (runCalls calls t').1 ∧
      (runCalls calls t').1.curl.uploaded = t'.curl.uploaded ++ handedOver calls t') :
    Uploading closing (runCalls (call :: calls) t).1 ∧
      (runCalls (call :: calls) t).1.curl.uploaded =
        t.curl.uploaded ++ handedOver (call :: calls) t := by
  unfold handedOver Chttpc.runCalls
  rcases hrun : call.run t with ⟨t', _ | returned⟩
  · rw [hrun] at h hadds
    rw [forEach, bind_none hrun]
    exact ⟨h, hadds.uploaded⟩
  · rw [hrun] at h hadds
    rw [forEach, bind_some hrun]
    obtain ⟨hlast, huploaded⟩ := hrest t' h
    refine ⟨hlast, huploaded.trans ?_⟩
    rw [hadds.uploaded, List.append_assoc]

/-- **Calls in turn** add what they have handed over. -/
theorem Uploading.runCalls {closing : Prop} : ∀ {calls : List Call} {t : Transfer},
    (∀ call ∈ calls, call.Uploads ∧ call.All Callback.Sized) →
      (∀ c, .closeOutput c ∈ calls → closing) → Uploading closing t →
        Uploading closing (runCalls calls t).1 ∧
          (runCalls calls t).1.curl.uploaded = t.curl.uploaded ++ handedOver calls t
  | [], _, _, _, h => ⟨h, (List.append_nil _).symm⟩
  | call :: calls, t, hcalls, hclosing, h => by
      obtain ⟨hcall, hok⟩ := hcalls call List.mem_cons_self
      obtain ⟨hnext, hadds⟩ := h.run hcall hok fun c hc => hclosing c (hc ▸ List.mem_cons_self)
      exact hnext.cons hadds fun t' =>
        Uploading.runCalls (fun call hcall => hcalls call (List.mem_cons_of_mem _ hcall))
          fun c hc => hclosing c (List.mem_cons_of_mem _ hc)

/-! ### The value of a `write` -/

theorem Transfer.write_value {w : BodyCall} {t t' : Transfer} {returned : Returned}
    (hbusy : t.ctrl.busy = false) (hgoal : t.ctrl.goalReached = false)
    (h : Transfer.write w t = (t', some returned)) :
    returned = .int (w.count - t'.ctrl.countToWrite) := by
  rw [Transfer.write_open hbusy hgoal] at h
  obtain ⟨s, -, -, h⟩ := bind_eq_some h
  cases h
  rfl

/-- While the lock is taken, calls are refused. -/
theorem busy_runCalls : ∀ (calls : List Call) {t : Transfer}, t.ctrl.busy = true →
    ∃ t', runCalls calls t = (t', some ()) ∧ t'.ctrl.busy = true
  | [], t, hbusy => ⟨t, rfl, hbusy⟩
  | call :: calls, t, hbusy => by
      obtain ⟨returned, hrun⟩ := call.run_taken hbusy
      obtain ⟨t₂, hrest, hbusy₂⟩ := busy_runCalls calls (t := { t with
        ctrl := { t.ctrl with env := ⟨some threadingException⟩ } }) hbusy
      refine ⟨t₂, ?_, hbusy₂⟩
      rw [runCalls, forEach, bind_some hrun]
      exact hrest

/-- A `write` that reaches a handle at its goal leaves the lock taken. -/
theorem busy_write_goal {w : BodyCall} {t : Transfer} (hgoal : t.ctrl.goalReached = true) :
    ∃ t' returned, Transfer.write w t = (t', some returned) ∧ t'.ctrl.busy = true := by
  cases hbusy : t.ctrl.busy with
  | true => exact ⟨_, _, Transfer.acquire_taken hbusy, hbusy⟩
  | false => exact ⟨_, _, Transfer.write_closed hbusy hgoal, rfl⟩

/-! ### Fidelity -/

/-- **Upload fidelity** of calls made one after another.  The bytes libcurl has been
given are those the calls have handed over, in the order of the calls; each access to
an array stays in the region of the `write` under way; a `write` returns the number
of bytes it has handed over, unless it is turned away at the goal; and libcurl has
been told that the upload is complete only if `closeOutput` has marked it so. -/
structure UploadFidelity (calls : List Call) (t₀ : Transfer) : Prop where
  uploaded : (runCalls calls t₀).1.curl.uploaded = handedOver calls t₀
  accesses : ∀ before call, before ++ [call] <+: calls →
    ∀ s, runCalls before t₀ = (s, some ()) →
      ∃ new, (call.run s).1.accesses = s.accesses ++ new ∧
        ∀ access ∈ new, ∃ w, call = .write w ∧ w.Covers access
  value : ∀ before w, before ++ [.write w] <+: calls →
    ∀ s, runCalls before t₀ = (s, some ()) →
      ∀ t returned, Transfer.write w s = (t, some returned) →
        ¬ (s.ctrl.busy = false ∧ s.ctrl.goalReached = true) →
          returned = .int (t.curl.uploaded.length - s.curl.uploaded.length)
  ended : (runCalls calls t₀).1.curl.endOfUpload = true →
    (runCalls calls t₀).1.ctrl.state.doneSending = true ∧ ∃ c, .closeOutput c ∈ calls

section Fidelity
variable {t₀ : Transfer} {c : Configure} {calls : List Call}

theorem Transfer.Detached.adds (h₀ : t₀.Detached) (hout : c.doOutput = true)
    (hok : (Call.nativeConfigure c).All Callback.Sized) (closing : Prop) :
    Uploading closing ((Call.nativeConfigure c).run t₀).1 ∧
      (Call.nativeConfigure c).Adds t₀ ((Call.nativeConfigure c).run t₀).1 := by
  have hconfigure : Feeding closing NothingSent (fun _ => False) [] []
      (Transfer.nativeConfigure c t₀).1 := Feeding.nativeConfigure h₀ hout hok
  rw [← h₀.uploaded, ← h₀.accesses] at hconfigure
  exact ⟨hconfigure.toUploading, .of_nothing rfl hconfigure⟩

/-- An upload, at any instant. -/
theorem Transfer.Detached.uploading (h₀ : t₀.Detached) (hout : c.doOutput = true)
    (hcalls : ∀ call ∈ calls, call.Uploads)
    (hcapacity : ∀ call ∈ .nativeConfigure c :: calls, call.All Callback.Sized) :
    Uploading (∃ c, .closeOutput c ∈ calls) (runCalls (.nativeConfigure c :: calls) t₀).1 ∧
      (runCalls (.nativeConfigure c :: calls) t₀).1.curl.uploaded =
        handedOver (.nativeConfigure c :: calls) t₀ := by
  obtain ⟨hconfigure, hadds⟩ := h₀.adds hout (hcapacity _ List.mem_cons_self)
    (∃ c, .closeOutput c ∈ calls)
  have hrun := hconfigure.cons hadds fun t' => Uploading.runCalls
    (fun call hcall => ⟨hcalls call hcall, hcapacity call (List.mem_cons_of_mem _ hcall)⟩)
    fun c hc => ⟨c, hc⟩
  rwa [h₀.uploaded] at hrun

/-- Once the configuration has returned, the calls go on from where it has left the
handle. -/
theorem runCalls_configure {before : List Call} {s : Transfer}
    (h : runCalls (.nativeConfigure c :: before) t₀ = (s, some ())) :
    ∃ s₀ returned, Transfer.nativeConfigure c t₀ = (s₀, some returned) ∧
      runCalls before s₀ = (s, some ()) := by
  obtain ⟨s₀, returned, hconfigure, hbefore⟩ := bind_eq_some h
  exact ⟨s₀, returned, hconfigure, hbefore⟩

/-- If no `write` at the goal comes before it, a call finds the lock free. -/
theorem Transfer.Detached.free (h₀ : t₀.Detached) {before : List Call} {s : Transfer}
    (hgoal : ∀ first w, first ++ [.write w] <+: before →
      ∀ t, runCalls (.nativeConfigure c :: first) t₀ = (t, some ()) → t.ctrl.goalReached = false)
    (hs : runCalls (.nativeConfigure c :: before) t₀ = (s, some ())) : s.ctrl.busy = false := by
  obtain ⟨s₀, returned, hconfigure, hbefore⟩ := runCalls_configure hs
  have hreleased := (released_throughout_iff (h₀.released hconfigure) before).mpr ?_
  · exact (hreleased before (List.prefix_refl _) s hbefore).busy
  · intro first w hpre t ht
    refine hgoal first w hpre t ?_
    rw [runCalls, forEach, bind_some (show (Call.nativeConfigure c).run t₀ = _ from hconfigure)]
    exact ht

/-- **Uploads are faithful exactly when no `write` follows one that is called at the
goal.**  The calls are any of `write`, within its array, `read` and `closeOutput`,
after one `nativeConfigure` for an upload; libcurl may invoke the read function in
any of them, any number of times and with any capacities. -/
theorem upload_fidelity_iff (h₀ : t₀.Detached) (hout : c.doOutput = true)
    (hcalls : ∀ call ∈ calls, call.Uploads)
    (hcapacity : ∀ call ∈ .nativeConfigure c :: calls, call.All Callback.Sized) :
    UploadFidelity (.nativeConfigure c :: calls) t₀ ↔
      ∀ before w middle w', before ++ .write w :: (middle ++ [.write w']) <+: calls →
        ∀ t, runCalls (.nativeConfigure c :: before) t₀ = (t, some ()) →
          t.ctrl.goalReached = false := by
  have hbegun : ∀ {before call s}, before ++ [call] <+: calls →
      runCalls (.nativeConfigure c :: before) t₀ = (s, some ()) →
        Uploading (∃ c, .closeOutput c ∈ calls) s ∧ call.Uploads ∧ call.All Callback.Sized := by
    intro before call s hpre hs
    have hsub : ∀ call ∈ before, call ∈ calls := fun call hcall =>
      hpre.subset (List.mem_append_left _ hcall)
    have hmem : call ∈ calls := hpre.subset (List.mem_append_right _ List.mem_cons_self)
    refine ⟨?_, hcalls call hmem, hcapacity call (List.mem_cons_of_mem _ hmem)⟩
    have huploading := h₀.uploading hout (fun call hcall => hcalls call (hsub call hcall)) <|
      List.forall_mem_cons.mpr ⟨hcapacity _ List.mem_cons_self, fun call hcall =>
        hcapacity call (List.mem_cons_of_mem _ (hsub call hcall))⟩
    rw [hs] at huploading
    exact ⟨huploading.1.eof, huploading.1.ended, fun h =>
      (huploading.1.closing h).imp fun c hc => hsub _ hc⟩
  constructor
  · intro h before w middle w' hpre t ht
    by_contra hgoal
    rw [Bool.not_eq_false] at hgoal
    -- every call behind the one at the goal is refused
    obtain ⟨t₁, returned, hw, hbusy₁⟩ := busy_write_goal (w := w) hgoal
    obtain ⟨t₂, hlast, hbusy₂⟩ := busy_runCalls middle hbusy₁
    have hrun : runCalls (.nativeConfigure c :: (before ++ .write w :: middle)) t₀ =
        (t₂, some ()) := by
      rw [← List.cons_append, runCalls, forEach_append ht, forEach,
        bind_some (show (Call.write w).run t = _ from hw)]
      exact hlast
    have hvalue := h.value (.nativeConfigure c :: (before ++ .write w :: middle)) w'
      (by simpa using hpre) t₂ hrun _ _ (Transfer.acquire_taken hbusy₂)
      (fun hfree => by rw [hbusy₂] at hfree; cases hfree.1)
    simp at hvalue
  · intro h
    obtain ⟨huploading, huploaded⟩ := h₀.uploading hout hcalls hcapacity
    refine ⟨huploaded, ?_, ?_, ?_⟩
    · intro before call hpre s hs
      cases before with
      | nil =>
        cases hs
        obtain ⟨rfl, -⟩ := List.cons_prefix_cons.mp hpre
        exact (h₀.adds hout (hcapacity _ List.mem_cons_self) True).2.accesses
      | cons first before =>
        obtain ⟨rfl, hrest⟩ := List.cons_prefix_cons.mp hpre
        obtain ⟨hbefore, hcall, hok⟩ := hbegun hrest hs
        refine (hbefore.run hcall hok ?_).2.accesses
        rintro c rfl
        exact ⟨c, hrest.subset (List.mem_append_right _ List.mem_cons_self)⟩
    · intro before w hpre s hs t returned hw hclosed
      cases before with
      | nil => cases (List.cons_prefix_cons.mp hpre).1
      | cons first before =>
        obtain ⟨rfl, hrest⟩ := List.cons_prefix_cons.mp hpre
        obtain ⟨hbefore, hcall, hok⟩ := hbegun hrest hs
        have hfree : s.ctrl.busy = false := by
          refine h₀.free (fun first w' hfirst t ht => ?_) hs
          obtain ⟨middle, rfl⟩ := hfirst
          exact h first w' middle w (by simpa using hrest) t ht
        have hgoal : s.ctrl.goalReached = false := by
          rw [← Bool.not_eq_true]
          exact fun hgoal => hclosed ⟨hfree, hgoal⟩
        obtain ⟨bytes, huploaded, hfed⟩ := (Feeding.write hcall hok hbefore hfree hgoal).fed
        rw [hw] at huploaded hfed
        have hcount : t.ctrl.countToWrite = w.count - bytes.length := hfed.2.1
        rw [Transfer.write_value hfree hgoal hw, huploaded, List.length_append]
        congr 1
        omega
    · intro hended
      have hdone := huploading.ended hended
      exact ⟨hdone, (huploading.closing hdone).imp fun c hc => List.mem_cons_of_mem _ hc⟩

end Fidelity

/-- A `write` of three bytes: libcurl asks for data until there is none left. -/
def writeTaken : BodyCall :=
  { writeThree with loop := ⟨⟨0, 0⟩, [quietIteration [.upload 2, .upload 16, .upload 16]]⟩ }

/-- An upload in chunks: two `write`s of three bytes, and the end. -/
def chunkedUpload : List Call :=
  [.write writeTaken, .write writeTaken, .closeOutput ⟨⟨[.upload 16], some .ok⟩,
    ⟨⟨0, 0⟩, [⟨false, ⟨[], some (.ok, 0)⟩, [⟨true, .ok⟩], false, -1, none, ⟨0, 0⟩⟩]⟩⟩]

/-- All of the calls return, and libcurl has been told of the end. -/
theorem upload_fidelity_chunkedUpload :
    (∃ t, runCalls (.nativeConfigure (configureUpload 0) :: chunkedUpload)
        (.fresh latinPlatform fun _ => 0) = (t, some ()) ∧
      t.curl.uploaded = [1, 2, 3, 1, 2, 3] ∧ t.curl.endOfUpload = true) ∧
    UploadFidelity (.nativeConfigure (configureUpload 0) :: chunkedUpload)
      (.fresh latinPlatform fun _ => 0) := by
  refine ⟨⟨_, rfl, rfl, rfl⟩, (upload_fidelity_iff (detached_fresh latinPlatform fun _ => 0)
    (show (configureUpload 0).doOutput = true from rfl) ?_ ?_).mpr ?_⟩
  · simp [chunkedUpload, Call.Uploads, BodyCall.InRange, writeTaken, writeThree]
  · simp [chunkedUpload, Call.All, Loop.All, Pause.All, writeTaken, writeThree, configureUpload,
      quietIteration, Callback.Sized]
  · intro before w middle w' hpre t ht
    cases before with
    | nil =>
      cases ht
      rfl
    | cons first before =>
      have hlen := hpre.length_le
      simp only [chunkedUpload, List.length_append, List.length_cons, List.length_nil] at hlen
      obtain rfl : before = [] := List.eq_nil_of_length_eq_zero (by omega)
      obtain rfl : middle = [] := List.eq_nil_of_length_eq_zero (by omega)
      simp [chunkedUpload, List.cons_prefix_cons] at hpre

/-- The `write` behind the one that is turned away is refused: it hands over nothing
and returns `-1`. -/
theorem not_upload_fidelity_overfullUpload :
    ¬ UploadFidelity (overfullUpload ++ [.write writeThree]) (.fresh latinPlatform fun _ => 0) := by
  intro h
  have hvalue : Returned.int (-1) = .int (3 - 3) :=
    h.value overfullUpload writeThree (List.prefix_refl _) _ rfl _ _ rfl (nomatch ·.1)
  exact absurd hvalue (by decide)

end Chttpc
