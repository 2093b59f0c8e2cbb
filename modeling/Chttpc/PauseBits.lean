import Chttpc.CallRules

/-!
# Paused directions

libcurl keeps a pause bit for each direction, and the handle a flag.  The flags
drift from the bits: unpausing one direction clears both bits but one flag, and
`read_callback` raises the flag without pausing when an upload is complete.  What
`curlPerform` relies on is one half of their agreement, that a bit is never set
without its flag (`PauseSafe`).  It does not wait while the flag of a direction it
needs is set, so it never waits for a direction that is paused (`Wait.Live`).
-/

namespace Chttpc
open Program

/-- The flags the pause bits are about. -/
def StateBits.pauseFlags (state : StateBits) : Bool × Bool × Bool :=
  (state.attached, state.recvPaused, state.sendPaused)

/-- The wait is not for a paused direction: not for receiving in `read`, not for
sending in `write` and `closeOutput`, and for neither in `nativeConfigure`. -/
structure Wait.Live (w : Wait) : Prop where
  read : w.ctrl.state.needInput = true → w.curl.recvPaused = false
  write : w.ctrl.state.needOutput = true → w.curl.sendPaused = false
  configure : w.ctrl.state.needInput = false → w.ctrl.state.needOutput = false →
    w.curl.recvPaused = false ∧ w.curl.sendPaused = false

/-- A paused direction has its flag set, and belongs to an attached handle. -/
structure PauseSafe (t : Transfer) : Prop where
  attached : t.curl.attached = t.ctrl.state.attached
  recv : t.curl.recvPaused = true → t.ctrl.state.recvPaused = true ∧ t.curl.attached = true
  send : t.curl.sendPaused = true → t.ctrl.state.sendPaused = true ∧ t.curl.attached = true
  waits : ∀ w ∈ t.waits, w.Live

/-! ## The callbacks -/

namespace Libcurl
variable {curl : Libcurl} {length : Nat} {bytes : List UInt8} {result : CallbackReturn}

@[simp] theorem afterWrite_attached :
    (curl.afterWrite length result).attached = curl.attached := by
  rw [afterWrite_eq]

@[simp] theorem afterWrite_sendPaused :
    (curl.afterWrite length result).sendPaused = curl.sendPaused := by
  rw [afterWrite_eq]

theorem afterWrite_recvPaused (h : (curl.afterWrite length result).recvPaused = true) :
    result = .pause ∨ curl.recvPaused = true := by
  unfold afterWrite at h
  split at h
  · exact .inl rfl
  · split at h <;> exact .inr h

@[simp] theorem afterRead_attached :
    (curl.afterRead bytes result).attached = curl.attached := by
  rw [afterRead_eq]

@[simp] theorem afterRead_recvPaused :
    (curl.afterRead bytes result).recvPaused = curl.recvPaused := by
  rw [afterRead_eq]

theorem afterRead_sendPaused (h : (curl.afterRead bytes result).sendPaused = true) :
    result = .pause ∨ curl.sendPaused = true := by
  unfold afterRead at h
  split at h
  · exact .inl rfl
  · exact .inr h
  · exact .inr h

end Libcurl

namespace CurlData
variable {ctrl : CurlData}

theorem writeCallback_recvPaused (platform : Platform) (chunk : List UInt8)
    (h : ctrl.state.recvPaused = true) :
    (ctrl.writeCallback platform chunk).ctrl.state.recvPaused = true := by
  unfold writeCallback
  split
  · rfl
  · dsimp only
    split
    · exact h
    · rw [takeReceived_eq]
      split
      · exact h
      · rfl

/-- A chunk is refused with the flag set. -/
theorem writeCallback_pause (platform : Platform) (chunk : List UInt8)
    (h : (ctrl.writeCallback platform chunk).result = .pause) :
    (ctrl.writeCallback platform chunk).ctrl.state.recvPaused = true := by
  unfold writeCallback at h ⊢
  split
  · rfl
  · rename_i hcount
    rw [if_neg hcount] at h
    dsimp only at h ⊢
    split at h
    · cases h
    · rename_i hoverflow
      rw [if_neg hoverflow]
      split at h
      · cases h
      · rename_i hfits
        rw [if_neg hfits]
        rfl

theorem countUploaded_sendPaused (written : Int) (h : ctrl.state.sendPaused = true) :
    (ctrl.countUploaded written).state.sendPaused = true := by
  unfold countUploaded
  split
  · exact h
  · dsimp only
    split
    · rfl
    · exact h

theorem readCallback_sendPaused (platform : Platform) (capacity : Nat)
    (h : ctrl.state.sendPaused = true) :
    (ctrl.readCallback platform capacity).ctrl.state.sendPaused = true := by
  unfold readCallback
  split
  · rfl
  · split
    · rfl
    · refine countUploaded_sendPaused _ ?_
      rw [placeBytes_eq]
      exact h

theorem readCallback_pause (platform : Platform) (capacity : Nat)
    (h : (ctrl.readCallback platform capacity).result = .pause) :
    (ctrl.readCallback platform capacity).ctrl.state.sendPaused = true := by
  unfold readCallback at h ⊢
  split
  · rfl
  · rename_i hdone
    rw [if_neg hdone] at h
    split
    · rfl
    · rename_i hcount
      rw [if_neg hcount] at h
      cases h

end CurlData

namespace PauseSafe
variable {t : Transfer}

/-- A change of the handle that leaves the flags as they are. -/
theorem of_flags (h : PauseSafe t) {ctrl : CurlData}
    (hflags : ctrl.state.pauseFlags = t.ctrl.state.pauseFlags) : PauseSafe { t with ctrl } := by
  simp only [StateBits.pauseFlags, Prod.mk.injEq] at hflags
  obtain ⟨hattached, hrecv, hsend⟩ := hflags
  exact ⟨h.attached.trans hattached.symm, fun hbit => ⟨hrecv.trans (h.recv hbit).1, (h.recv hbit).2⟩,
    fun hbit => ⟨hsend.trans (h.send hbit).1, (h.send hbit).2⟩, h.waits⟩

theorem receiveChunk (h : PauseSafe t) (n : Nat) (hattached : t.curl.attached = true) :
    PauseSafe (t.receiveChunk n) := by
  refine ⟨?_, fun hbit => ⟨?_, ?_⟩, fun hbit => ?_, h.waits⟩
  · show (Libcurl.afterWrite _ _ _).attached = (CurlData.writeCallback _ _ _).ctrl.state.attached
    rw [Libcurl.afterWrite_attached, CurlData.writeCallback_eq]
    exact h.attached
  · rcases Libcurl.afterWrite_recvPaused hbit with hpause | hbefore
    · exact CurlData.writeCallback_pause _ _ hpause
    · exact CurlData.writeCallback_recvPaused _ _ (h.recv hbefore).1
  · exact Libcurl.afterWrite_attached.trans hattached
  · have hbefore := h.send (Libcurl.afterWrite_sendPaused.symm.trans hbit)
    refine ⟨?_, Libcurl.afterWrite_attached.trans hattached⟩
    show (CurlData.writeCallback _ _ _).ctrl.state.sendPaused = true
    rw [CurlData.writeCallback_eq]
    exact hbefore.1

theorem sendChunk (h : PauseSafe t) (capacity : Nat) (hattached : t.curl.attached = true) :
    PauseSafe (t.sendChunk capacity) := by
  unfold Transfer.sendChunk
  dsimp only
  split
  · refine ⟨?_, fun hbit => ?_, fun hbit => ?_, h.waits⟩
    · rw [Libcurl.afterRead_attached, CurlData.readCallback_eq]
      exact h.attached
    · rw [Libcurl.afterRead_recvPaused] at hbit
      rw [Libcurl.afterRead_attached, CurlData.readCallback_eq]
      exact h.recv hbit
    · refine ⟨?_, by rwa [Libcurl.afterRead_attached]⟩
      rcases Libcurl.afterRead_sendPaused hbit with hpause | hbefore
      · exact CurlData.readCallback_pause _ _ hpause
      · exact CurlData.readCallback_sendPaused _ _ (h.send hbefore).1
  · exact ⟨h.attached, h.recv, fun hbit => ⟨rfl, (h.send hbit).2⟩, h.waits⟩

/-- Where the loop waits, it waits for nothing that is paused. -/
theorem live (h : PauseSafe t) (hbails : t.ctrl.bails t.rodata = false) :
    Wait.Live ⟨t.ctrl, t.curl⟩ := by
  simp only [CurlData.bails, Bool.or_eq_false_iff, Bool.and_eq_false_iff] at hbails
  have hrecv : t.ctrl.state.recvPaused = false → t.curl.recvPaused = false := by
    intro hflag
    cases hbit : t.curl.recvPaused with
    | false => rfl
    | true => rw [(h.recv hbit).1] at hflag; cases hflag
  have hsend : t.ctrl.state.sendPaused = false → t.curl.sendPaused = false := by
    intro hflag
    cases hbit : t.curl.sendPaused with
    | false => rfl
    | true => rw [(h.send hbit).1] at hflag; cases hflag
  refine ⟨fun hneed => ?_, fun hneed => ?_, fun hin hout => ?_⟩
  · simp_all
  · simp_all
  · simp_all

protected theorem invariant : Transfer.Invariant PauseSafe fun _ => True where
  io := by
    intro t ctrl hio h
    exact h.of_flags (congrArg (·.state.pauseFlags) hio)
  receive := fun _ n _ hattached h => h.receiveChunk n hattached
  send := fun _ capacity _ hattached h => h.sendChunk capacity hattached
  wait := by
    intro t hbails h
    refine ⟨h.attached, h.recv, h.send, fun w hw => ?_⟩
    rcases List.mem_append.mp hw with hw | hw
    · exact h.waits w hw
    · rw [List.mem_singleton.mp hw]
      exact h.live hbails

/-! ## The methods -/

theorem fresh (platform : Platform) (rodata : Nat → UInt8) :
    PauseSafe (.fresh platform rodata) where
  attached := rfl
  recv := fun h => nomatch h
  send := fun h => nomatch h
  waits := fun _ h => nomatch h

theorem attach (h : PauseSafe t) (c : Configure) : PauseSafe (c.attach t) := by
  unfold Configure.attach
  dsimp only
  split
  · exact ⟨h.attached, h.recv, h.send, h.waits⟩
  · exact ⟨rfl, (nomatch ·), (nomatch ·), h.waits⟩

theorem detach_reset (h : PauseSafe t) : PauseSafe (t.detach.modify CurlData.reset) := by
  unfold Transfer.detach
  split
  · exact ⟨rfl, (nomatch ·), (nomatch ·), h.waits⟩
  · rename_i hdetached
    have hcurl : t.curl.attached = false := h.attached.trans (Bool.eq_false_iff.mpr hdetached)
    refine ⟨hcurl, fun hbit => ?_, fun hbit => ?_, h.waits⟩
    · exact absurd (h.recv hbit).2 (by rw [hcurl]; decide)
    · exact absurd (h.send hbit).2 (by rw [hcurl]; decide)

/-- A direction is unpaused with both bits, so clearing its flag does no harm. -/
protected theorem lines : Transfer.Lines PauseSafe fun _ => True where
  lock := fun _ _ _ h => h.of_flags rfl
  wire := fun _ _ hwire h => h.of_flags (congrArg (·.state.pauseFlags) hwire)
  beginConfigure := fun _ _ _ h => h.of_flags rfl
  attach := fun _ c _ h => h.attach c
  beginRead := fun _ _ _ h => h.of_flags rfl
  beginWrite := fun _ _ h => h.of_flags rfl
  beginClose := fun _ h => ⟨h.attached, h.recv, h.send, h.waits⟩
  needInput := fun _ h => h.of_flags rfl
  needOutput := fun _ h => h.of_flags rfl
  resumeReceiving := fun _ h => ⟨h.attached, (nomatch ·), (nomatch ·), h.waits⟩
  resumeSending := fun _ h => ⟨h.attached, (nomatch ·), (nomatch ·), h.waits⟩
  reset := fun _ _ h => h.detach_reset

/-- Every method keeps the flags of paused directions, at every instant. -/
theorem run (call : Call) : Keeps PauseSafe call.run :=
  PauseSafe.lines.keeps_run PauseSafe.invariant trivial (call.all_true)

end PauseSafe

/-- **No wait on a paused direction.**  At every instant of a run of native calls, a
direction that libcurl has paused has its flag set, and no call of
`curl_multi_wait` so far was made for a paused direction. -/
theorem no_wait_on_paused (platform : Platform) (rodata : Nat → UInt8) (calls : List Call) :
    let t := (runCalls calls (.fresh platform rodata)).1
    (t.curl.recvPaused = true → t.ctrl.state.recvPaused = true) ∧
      (t.curl.sendPaused = true → t.ctrl.state.sendPaused = true) ∧ ∀ w ∈ t.waits, w.Live := by
  have hkeeps : Keeps PauseSafe (runCalls calls) := Keeps.forEach fun call _ => PauseSafe.run call
  have h := keeps_iff.mp hkeeps _ (PauseSafe.fresh platform rodata)
  exact ⟨fun hbit => (h.recv hbit).1, fun hbit => (h.send hbit).1, h.waits⟩

end Chttpc
