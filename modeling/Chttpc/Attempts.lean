import Chttpc.FailedInsertion
import Chttpc.Handover
import Chttpc.ShortReads
import Chttpc.Timeouts

/-!
# What a call asks of libcurl

A native method that has the lock asks libcurl to unpause a direction, to perform, and to
perform again and wait, for as long as the loop goes round.  `Attempted` says which of these a
call comes to.  During each libcurl makes callbacks, and a callback may raise an exception
(`env_invoke`); then libcurl answers, and the answer may be an error.
-/

namespace Chttpc
open Program

/-! ## The callbacks -/

namespace CurlData
variable (ctrl : CurlData)

/-- What errors are raised with, and what says whether there is room for a line. -/
structure Errors where
  env : JNIEnv
  errorBuffer : List UInt8
  headerBufSize : Nat
  headerPairCount : Nat

def errors : Errors := ⟨ctrl.env, ctrl.errorBuffer, ctrl.headerBufSize, ctrl.headerPairCount⟩

theorem errors_storeHeader (line : HeaderLine) (name : CString) (block : Nat) :
    (ctrl.storeHeader line name block).1.errors = ctrl.errors := by
  rw [storeHeader_eq]
  rfl

/-- The capacity that is asked for is not there and cannot be had. -/
def Errors.full (errors : Errors) (reallocOk : Bool) : Bool :=
  decide (errors.headerBufSize < errors.headerPairCount + 1) && !reallocOk

variable {ctrl}

theorem headersEnsureCapacity_full (reallocOk : Bool) :
    (ctrl.headersEnsureCapacity reallocOk (ctrl.headerPairCount + 1)).2 =
      ctrl.errors.full reallocOk := by
  unfold headersEnsureCapacity Errors.full errors
  cases reallocOk <;> grind

theorem appendPair_env {errors : Errors} (h : ctrl.errors = errors) (line : HeaderLine)
    (statusLine : Bool) (old block : Nat) (name : CString) :
    (ctrl.appendPair line statusLine old block name).1.env =
        (if errors.full line.reallocOk then errors.env.throw (.byCallback .oom none 0)
          else errors.env) ∧
      (ctrl.appendPair line statusLine old block name).1.errorBuffer = errors.errorBuffer := by
  subst h
  rw [← headersEnsureCapacity_full]
  have hcapacity : (ctrl.headersEnsureCapacity line.reallocOk (ctrl.headerPairCount + 1)).1.env =
        (if (ctrl.headersEnsureCapacity line.reallocOk (ctrl.headerPairCount + 1)).2 then
          ctrl.env.throw (.byCallback .oom none 0) else ctrl.env) ∧
      (ctrl.headersEnsureCapacity line.reallocOk (ctrl.headerPairCount + 1)).1.errorBuffer =
        ctrl.errorBuffer := by
    unfold headersEnsureCapacity
    split
    · exact ⟨rfl, rfl⟩
    · dsimp only
      split
      · exact ⟨rfl, rfl⟩
      · exact ⟨rfl, rfl⟩
  unfold appendPair
  dsimp only
  split
  · rename_i hfailed
    rw [if_pos hfailed] at hcapacity
    exact hcapacity
  · rename_i hfailed
    rw [if_neg hfailed] at hcapacity
    split
    · exact hcapacity
    · exact hcapacity

variable (ctrl)

/-- A header line raises an exception exactly if there is no room for it. -/
theorem headerCallback_env (line : HeaderLine) :
    (ctrl.headerCallback line).1.env =
        (if ctrl.growFails line then ctrl.env.throw (.byCallback .oom none 0) else ctrl.env) ∧
      (ctrl.headerCallback line).1.errorBuffer = ctrl.errorBuffer := by
  cases hspecial : line.isSpecial with
  | false =>
    have hstatus : line.isStatusLine = false := by
      cases hstatus : line.isStatusLine with
      | false => rfl
      | true => rw [isSpecial_of_isStatusLine hstatus] at hspecial; cases hspecial
    have hfull : ctrl.growFails line = ctrl.errors.full line.reallocOk := by
      unfold growFails
      rw [hspecial, hstatus]
      exact headersEnsureCapacity_full line.reallocOk
    obtain ⟨maxHeaderLength, name, hcall⟩ := headerCallback_entered ctrl hspecial
    have hentered : ({ ctrl.entered line with maxHeaderLength } : CurlData).errors = ctrl.errors :=
      errors_storeHeader _ line _ _
    rw [hcall, hfull]
    exact appendPair_env hentered line false 0 _ _
  | true =>
    cases hstatus : line.isStatusLine with
    | false =>
      rw [headerCallback_terminator hspecial hstatus, growFails, hspecial, hstatus]
      exact ⟨rfl, rfl⟩
    | true =>
      have hfull : ctrl.growFails line = (ctrl.setCount 0).errors.full line.reallocOk := by
        rw [← headersEnsureCapacity_full, growFails, hspecial, hstatus]
        unfold headersEnsureCapacity
        grind [setCount]
      have hbegun : ((ctrl.beginResponse.setCount 0).copyLine line).errors =
          (ctrl.setCount 0).errors := by
        unfold beginResponse
        split <;> rfl
      rw [headerCallback_begins hstatus, hfull]
      exact appendPair_env hbegun line true _ _ _

/-- A callback asks for a range that the array does not have. -/
def outOfBounds : Option (List UInt8) → Option ArrayAccess → Bool
  | some buf, some access => !decide (access.inBounds buf)
  | _, _ => false

theorem outOfBounds_none (buf : Option (List UInt8)) : outOfBounds buf none = false := by
  cases buf <;> rfl

theorem outOfBounds_some {buf : List UInt8} {access : ArrayAccess} :
    outOfBounds (some buf) (some access) = true ↔ ¬ access.inBounds buf := by
  simp [outOfBounds]

theorem arrayWrite_env (buf ptr : List UInt8) (count : Int) :
    (ctrl.arrayWrite buf ptr count).1.env =
      if outOfBounds (some buf) (some ⟨ctrl.readOffset, count⟩) then
        ctrl.env.throw .arrayIndexOutOfBounds else ctrl.env := by
  unfold arrayWrite
  split
  · rename_i hbounds
    rw [if_neg fun h => outOfBounds_some.mp h hbounds]
  · rename_i hbounds
    rw [if_pos (outOfBounds_some.mpr hbounds)]
    rfl

theorem arrayRead_env (buf : List UInt8) (count : Int) :
    (ctrl.arrayRead buf count).1.env =
      if outOfBounds (some buf) (some ⟨ctrl.writeOffset, count⟩) then
        ctrl.env.throw .arrayIndexOutOfBounds else ctrl.env := by
  unfold arrayRead
  split
  · rename_i hbounds
    rw [if_neg fun h => outOfBounds_some.mp h hbounds]
  · rename_i hbounds
    rw [if_pos (outOfBounds_some.mpr hbounds)]
    rfl

theorem takeReceived_env (platform : Platform) (ptr : List UInt8) (pendingReal : Int) :
    (ctrl.takeReceived platform ptr pendingReal).ctrl.env =
      if outOfBounds ctrl.bufferForReceiving
        (ctrl.takeReceived platform ptr pendingReal).access then
        ctrl.env.throw .arrayIndexOutOfBounds else ctrl.env := by
  unfold takeReceived
  split
  · rename_i buf hbuf
    rw [hbuf]
    exact ctrl.arrayWrite_env buf _ _
  · rw [outOfBounds_none]
    rfl

theorem writeCallback_env (platform : Platform) (chunk : List UInt8) :
    (ctrl.writeCallback platform chunk).ctrl.env =
      if outOfBounds ctrl.bufferForReceiving (ctrl.writeCallback platform chunk).access then
        ctrl.env.throw .arrayIndexOutOfBounds else ctrl.env := by
  unfold writeCallback
  split
  · rw [outOfBounds_none]
    rfl
  · dsimp only
    split
    · rw [outOfBounds_none]
      rfl
    · split
      · exact ctrl.takeReceived_env _ _ _
      · exact ctrl.takeReceived_env _ _ _

theorem placeBytes_env (capacity : Nat) :
    (ctrl.placeBytes capacity).ctrl.env =
      if outOfBounds ctrl.bufferForSending (ctrl.placeBytes capacity).access then
        ctrl.env.throw .arrayIndexOutOfBounds else ctrl.env := by
  unfold placeBytes
  split
  · rename_i buf hbuf
    rw [hbuf]
    exact ctrl.arrayRead_env buf _
  · rw [outOfBounds_none]
    rfl

theorem readCallback_env (platform : Platform) (capacity : Nat) :
    (ctrl.readCallback platform capacity).ctrl.env =
      if outOfBounds ctrl.bufferForSending (ctrl.readCallback platform capacity).access then
        ctrl.env.throw .arrayIndexOutOfBounds else ctrl.env := by
  unfold readCallback
  split
  · rw [outOfBounds_none]
    rfl
  · split
    · rw [outOfBounds_none]
      rfl
    · dsimp only
      rw [countUploaded_eq]
      exact ctrl.placeBytes_env capacity

end CurlData

/-- The exception that a callback raises, if it raises one: there is no room for a header line,
or a range of a Java array is asked for that the array does not have. -/
def Callback.raises (t : Transfer) (callback : Callback) : Option Throwable :=
  if t.curl.attached = false then none
  else
    match callback with
    | .header line => if t.ctrl.growFails line then some (.byCallback .oom none 0) else none
    | .body n =>
        if t.curl.writeFunction = .writeCallback ∧
            CurlData.outOfBounds t.ctrl.bufferForReceiving
              (t.ctrl.writeCallback t.platform (t.curl.offer n)).access = true then
          some .arrayIndexOutOfBounds
        else none
    | .upload capacity =>
        if t.curl.readFunction = .readCallback ∧
            CurlData.outOfBounds t.ctrl.bufferForSending
              (t.ctrl.readCallback t.platform capacity).access = true then
          some .arrayIndexOutOfBounds
        else none
    | .errorText _ => none

/-- Raises an exception, if there is one to raise. -/
def JNIEnv.throwSome (env : JNIEnv) : Option Throwable → JNIEnv
  | some e => env.throw e
  | none => env

theorem JNIEnv.throwSome_ite (env : JNIEnv) (e : Throwable) (c : Prop) [Decidable c] :
    env.throwSome (if c then some e else none) = if c then env.throw e else env := by
  split <;> rfl

/-- **What a callback does to the exceptions.** -/
theorem env_invoke (t : Transfer) (callback : Callback) :
    (t.invoke callback).ctrl.env = t.ctrl.env.throwSome (callback.raises t) := by
  unfold Transfer.invoke Callback.raises
  cases t.curl.attached with
  | false => rfl
  | true =>
    rw [if_pos rfl, if_neg (ne_false_of_eq_true rfl)]
    cases callback with
    | header line =>
      rw [JNIEnv.throwSome_ite]
      exact (t.ctrl.headerCallback_env line).1
    | errorText text => rfl
    | body n =>
      rw [JNIEnv.throwSome_ite]
      unfold Transfer.handle
      cases t.curl.writeFunction with
      | writeCallback => exact (t.ctrl.writeCallback_env _ _).trans (by simp)
      | skipReceiveCallback => rfl
      | abortReceiveCallback => rfl
    | upload capacity =>
      rw [JNIEnv.throwSome_ite]
      unfold Transfer.handle Transfer.sendChunk
      cases t.curl.readFunction with
      | readCallback => exact (t.ctrl.readCallback_env _ _).trans (by simp)
      | eofCallback => rfl

/-- **What a callback does to the text of the last error.** -/
theorem errorBuffer_invoke (t : Transfer) (callback : Callback) :
    (t.invoke callback).ctrl.errorBuffer = t.ctrl.errorBuffer ∨
      callback = .errorText (t.invoke callback).ctrl.errorBuffer := by
  unfold Transfer.invoke
  split
  · cases callback with
    | header line => exact .inl (t.ctrl.headerCallback_env line).2
    | errorText text => exact .inr rfl
    | body n =>
      left
      unfold Transfer.handle Transfer.receiveChunk
      dsimp only
      split
      · rw [CurlData.writeCallback_eq]
      · rfl
      · rfl
    | upload capacity =>
      left
      unfold Transfer.handle Transfer.sendChunk
      dsimp only
      split
      · rw [CurlData.readCallback_eq]
      · rfl
  · exact .inl rfl

/-! ## The attempts of a call -/

/-- Something that libcurl is asked to do, with the state in which it is: to go on with a
direction, to begin the transfer, or a pass of the loop. -/
inductive Attempt
  | unpause (before : Transfer) (pause : Pause)
  | connect (before : Transfer) (c : Configure)
  | pass (p : Pass)

namespace Attempt

def before : Attempt → Transfer
  | .unpause before _ | .connect before _ => before
  | .pass p => p.before

/-- The callbacks that libcurl makes. -/
def callbacks : Attempt → List Callback
  | .unpause _ pause => pause.callbacks
  | .connect _ c => c.perform.callbacks
  | .pass p => Transfer.madeIn p.it

end Attempt

/-- The handle when a direction is unpaused. -/
def Transfer.unpaused (clear : CurlData → CurlData) (t : Transfer) : Transfer :=
  { t.modify clear with curl := t.curl.unpause }

/-- The handle of a `closeOutput`, when its arguments are stored. -/
def Transfer.closing (t : Transfer) : Transfer := (t.entered.modify (·.beginClose)).setEof

/-- The handle of a `nativeConfigure`, when the options are set. -/
def Configure.connecting (c : Configure) (t : Transfer) : Transfer :=
  c.attach (t.entered.modify (·.beginConfigure))

/-- What a call that has the lock comes to ask of libcurl. -/
inductive Attempted : Call → Transfer → Attempt → Prop
  | connect {c : Configure} {t : Transfer} : c.urlBufferOk = true → c.interrupted = false →
      Attempted (.nativeConfigure c) t (.connect (c.connecting t) c)
  | connected {c : Configure} {t s : Transfer} {running : Nat} {p : Pass} :
      c.urlBufferOk = true → c.interrupted = false → c.perform.returns = some (.ok, running) →
      Transfer.hasEnded running c.messages ((c.connecting t).invokeAll c.perform.callbacks) =
        (s, some false) →
      p ∈ Transfer.loopPasses c.loop s → Attempted (.nativeConfigure c) t (.pass p)
  | resumeReading {r : BodyCall} {t : Transfer} : (t.reading r).ctrl.state.recvPaused = true →
      Attempted (.read r) t (.unpause ((t.reading r).unpaused (·.setRecvPaused false)) r.pause)
  | reading {r : BodyCall} {t s : Transfer} {p : Pass} :
      Transfer.resumeReceiving r.pause (t.reading r) = (s, some .ok) → r.interrupted = false →
      p ∈ Transfer.loopPasses r.loop s → Attempted (.read r) t (.pass p)
  | resumeWriting {w : BodyCall} {t : Transfer} : t.ctrl.goalReached = false →
      (w.writing t).ctrl.state.sendPaused = true →
      Attempted (.write w) t (.unpause ((w.writing t).unpaused (·.setSendPaused false)) w.pause)
  | writing {w : BodyCall} {t s : Transfer} {p : Pass} : t.ctrl.goalReached = false →
      Transfer.resumeSending w.pause (w.writing t) = (s, some .ok) → w.interrupted = false →
      0 < s.ctrl.countToWrite → p ∈ Transfer.loopPasses w.loop s →
      Attempted (.write w) t (.pass p)
  | resumeClosing {c : Close} {t : Transfer} : t.closing.ctrl.state.sendPaused = true →
      Attempted (.closeOutput c) t (.unpause (t.closing.unpaused (·.setSendPaused false)) c.pause)
  | closing {c : Close} {t s : Transfer} {p : Pass} :
      Transfer.resumeSending c.pause t.closing = (s, some .ok) → s.ctrl.state.sendPaused = false →
      p ∈ Transfer.loopPasses c.loop s → Attempted (.closeOutput c) t (.pass p)

/-- The callback is made during the call. -/
def Call.Makes (call : Call) (t : Transfer) (callback : Callback) : Prop :=
  ∃ a, Attempted call t a ∧ callback ∈ a.callbacks

/-! ## How the methods end -/

/-- A method that goes on with a direction if it is paused, and then enters the loop, or does
not.  It begins when its arguments are stored. -/
structure Resuming where
  flag : StateBits → Bool
  clear : CurlData → CurlData
  pause : Pause
  enters : Transfer → Prop
  loop : Loop
  begins : Transfer

namespace Resuming
variable (m : Resuming)

def resume : Program Transfer CURLcode := Transfer.resume m.flag m.clear m.pause

/-- What it asks of libcurl. -/
def Attempts (a : Attempt) : Prop :=
  (m.flag m.begins.ctrl.state = true ∧ a = .unpause (m.begins.unpaused m.clear) m.pause) ∨
    ∃ s p, m.resume m.begins = (s, some .ok) ∧ m.enters s ∧ p ∈ Transfer.loopPasses m.loop s ∧
      a = .pass p

/-- How it ends. -/
inductive Exit : Transfer → Prop
  | refused {s : Transfer} {code : CURLcode} : m.resume m.begins = (s, some code) → code ≠ .ok →
      Exit (s.modify (·.handleEasyError code))
  | stays {s : Transfer} : m.resume m.begins = (s, some .ok) → ¬ m.enters s → Exit s
  | loops {s t' : Transfer} {ended : Bool} : m.resume m.begins = (s, some .ok) → m.enters s →
      Transfer.curlPerform m.loop s = (t', some ended) → Exit t'

end Resuming

def BodyCall.reads (r : BodyCall) (t : Transfer) : Resuming where
  flag := (·.recvPaused)
  clear := (·.setRecvPaused false)
  pause := r.pause
  enters := fun _ => r.interrupted = false
  loop := r.loop
  begins := t.reading r

def BodyCall.writes (w : BodyCall) (t : Transfer) : Resuming where
  flag := (·.sendPaused)
  clear := (·.setSendPaused false)
  pause := w.pause
  enters := fun s => w.interrupted = false ∧ 0 < s.ctrl.countToWrite
  loop := w.loop
  begins := w.writing t

def Close.closes (c : Close) (t : Transfer) : Resuming where
  flag := (·.sendPaused)
  clear := (·.setSendPaused false)
  pause := c.pause
  enters := fun s => s.ctrl.state.sendPaused = false
  loop := c.loop
  begins := t.closing

section Ends
variable {t t' : Transfer} {returned : Returned} {a : Attempt}

theorem attempted_read {r : BodyCall} : Attempted (.read r) t a ↔ (r.reads t).Attempts a := by
  constructor
  · intro ha
    cases ha with
    | resumeReading hpaused => exact .inl ⟨hpaused, rfl⟩
    | reading h hinterrupted hp => exact .inr ⟨_, _, h, hinterrupted, hp, rfl⟩
  · rintro (⟨hpaused, rfl⟩ | ⟨s, p, h, hinterrupted, hp, rfl⟩)
    · exact .resumeReading hpaused
    · exact .reading h hinterrupted hp

theorem exit_of_read {r : BodyCall} (hbusy : t.ctrl.busy = false)
    (hrun : Transfer.read r t = (t', some returned)) :
    ∃ s, (r.reads t).Exit s ∧ t'.ctrl.env = s.ctrl.env := by
  obtain ⟨s, value, hexit, rfl, -⟩ := Transfer.exit_of_read hbusy hrun
  refine ⟨s, ?_, rfl⟩
  cases hexit with
  | refused h hcode => exact .refused h hcode
  | interrupted h hinterrupted => exact .stays h (ne_false_of_eq_true hinterrupted)
  | drained h hinterrupted hloop _ => exact .loops h hinterrupted hloop
  | success h hinterrupted hloop _ => exact .loops h hinterrupted hloop

theorem attempted_write {w : BodyCall} (hgoal : t.ctrl.goalReached = false) :
    Attempted (.write w) t a ↔ (w.writes t).Attempts a := by
  constructor
  · intro ha
    cases ha with
    | resumeWriting _ hpaused => exact .inl ⟨hpaused, rfl⟩
    | writing _ h hinterrupted hcount hp => exact .inr ⟨_, _, h, ⟨hinterrupted, hcount⟩, hp, rfl⟩
  · rintro (⟨hpaused, rfl⟩ | ⟨s, p, h, ⟨hinterrupted, hcount⟩, hp, rfl⟩)
    · exact .resumeWriting hgoal hpaused
    · exact .writing hgoal h hinterrupted hcount hp

theorem exit_of_send {w : BodyCall} {s : Transfer} {sent : Unit}
    (hsend : Transfer.send w (w.writing t) = (s, some sent)) : (w.writes t).Exit s := by
  obtain ⟨s₁, code, hresume, hsend⟩ := bind_eq_some hsend
  by_cases hcode : code = .ok
  swap
  · rw [if_pos hcode] at hsend
    cases hsend
    exact .refused hresume hcode
  subst hcode
  rw [if_neg (not_not.mpr rfl)] at hsend
  cases hinterrupted : w.interrupted with
  | true =>
    rw [if_pos hinterrupted] at hsend
    cases hsend
    exact .stays hresume fun h => ne_false_of_eq_true hinterrupted h.1
  | false =>
    rw [if_neg (ne_true_of_eq_false hinterrupted), bind_some (show
      Transfer.get (·.countToWrite) s₁ = (s₁, some s₁.ctrl.countToWrite) from rfl)] at hsend
    by_cases hcount : 0 < s₁.ctrl.countToWrite
    · rw [if_pos hcount] at hsend
      obtain ⟨s₂, ended, hloop, hsend⟩ := bind_eq_some hsend
      cases hsend
      exact .loops hresume ⟨hinterrupted, hcount⟩ hloop
    · rw [if_neg hcount] at hsend
      cases hsend
      exact .stays hresume fun h => hcount h.2

theorem exit_of_write {w : BodyCall} (hbusy : t.ctrl.busy = false)
    (hgoal : t.ctrl.goalReached = false) (hrun : Transfer.write w t = (t', some returned)) :
    ∃ s, (w.writes t).Exit s ∧ t'.ctrl.env = s.ctrl.env := by
  rw [Transfer.write_open hbusy hgoal] at hrun
  obtain ⟨s, sent, hsend, hrun⟩ := bind_eq_some hrun
  cases hrun
  exact ⟨s, exit_of_send hsend, rfl⟩

theorem attempted_closeOutput {c : Close} :
    Attempted (.closeOutput c) t a ↔ (c.closes t).Attempts a := by
  constructor
  · intro ha
    cases ha with
    | resumeClosing hpaused => exact .inl ⟨hpaused, rfl⟩
    | closing h hpaused hp => exact .inr ⟨_, _, h, hpaused, hp, rfl⟩
  · rintro (⟨hpaused, rfl⟩ | ⟨s, p, h, hpaused, hp, rfl⟩)
    · exact .resumeClosing hpaused
    · exact .closing h hpaused hp

theorem exit_of_closeOutput {c : Close} (hbusy : t.ctrl.busy = false)
    (hrun : Transfer.closeOutput c t = (t', some returned)) :
    ∃ s, (c.closes t).Exit s ∧ t'.ctrl.env = s.ctrl.env := by
  rw [Transfer.closeOutput, Transfer.acquire_free hbusy] at hrun
  obtain ⟨s, finished, hfinish, hrun⟩ := bind_eq_some hrun
  cases hrun
  refine ⟨s, ?_, rfl⟩
  obtain ⟨s₁, code, hresume, hfinish⟩ := bind_eq_some
    (show Transfer.finish c t.closing = (s, some finished) from hfinish)
  by_cases hcode : code = .ok
  swap
  · rw [if_pos hcode] at hfinish
    cases hfinish
    exact .refused hresume hcode
  subst hcode
  rw [if_neg (not_not.mpr rfl), bind_some (show Transfer.get (·.state.sendPaused) s₁ =
    (s₁, some s₁.ctrl.state.sendPaused) from rfl)] at hfinish
  cases hpaused : s₁.ctrl.state.sendPaused with
  | true =>
    rw [hpaused, if_pos rfl] at hfinish
    cases hfinish
    exact .stays hresume (ne_false_of_eq_true hpaused)
  | false =>
    rw [hpaused, if_neg Bool.false_ne_true] at hfinish
    obtain ⟨s₂, ended, hloop, hfinish⟩ := bind_eq_some hfinish
    cases hfinish
    exact .loops hresume hpaused hloop

/-- How a `nativeConfigure` ends once the options are set. -/
inductive ConnectExit (c : Configure) (t : Transfer) : Transfer → Prop
  | interrupted : c.interrupted = true → ConnectExit c t t
  | multiError {result : CURLMcode} {running : Nat} : c.interrupted = false →
      c.perform.returns = some (result, running) → result ≠ .ok →
      ConnectExit c t ((t.invokeAll c.perform.callbacks).modify (·.handleMultiError result))
  | completed {s : Transfer} {running : Nat} : c.interrupted = false →
      c.perform.returns = some (.ok, running) →
      Transfer.hasEnded running c.messages (t.invokeAll c.perform.callbacks) = (s, some true) →
      ConnectExit c t s
  | looped {s s' : Transfer} {running : Nat} {ended : Bool} : c.interrupted = false →
      c.perform.returns = some (.ok, running) →
      Transfer.hasEnded running c.messages (t.invokeAll c.perform.callbacks) = (s, some false) →
      Transfer.curlPerform c.loop s = (s', some ended) → ConnectExit c t s'

theorem exit_of_connect {c : Configure} {url : List UInt16}
    (hrun : Transfer.connect c t = (t', some url)) : ConnectExit c t t' := by
  unfold Transfer.connect at hrun
  cases hinterrupted : c.interrupted with
  | true =>
    rw [if_pos hinterrupted] at hrun
    cases hrun
    exact .interrupted hinterrupted
  | false =>
  rw [if_neg (ne_true_of_eq_false hinterrupted)] at hrun
  obtain ⟨s₁, ⟨result, running⟩, hperform, hrun⟩ := bind_eq_some hrun
  obtain rfl : t.invokeAll c.perform.callbacks = s₁ := congrArg Prod.fst hperform
  have hreturns : c.perform.returns = some (result, running) := congrArg Prod.snd hperform
  dsimp only at hrun
  by_cases hresult : result = .ok
  swap
  · rw [if_pos hresult] at hrun
    cases hrun
    exact .multiError hinterrupted hreturns hresult
  subst hresult
  rw [if_neg (not_not.mpr rfl)] at hrun
  obtain ⟨s₂, completed, hended, hrun⟩ := bind_eq_some hrun
  cases completed with
  | true =>
    rw [if_pos rfl] at hrun
    cases hrun
    exact .completed hinterrupted hreturns hended
  | false =>
    rw [if_neg Bool.false_ne_true] at hrun
    obtain ⟨s₃, ended, hloop, hrun⟩ := bind_eq_some hrun
    have hlooped : ConnectExit c t s₃ := .looped hinterrupted hreturns hended hloop
    split at hrun
    · cases hrun
      exact hlooped
    · split at hrun
      · rw [bind_some (read_apply _ _)] at hrun
        cases heffective : c.effective s₃.platform with
        | some url => rw [heffective] at hrun; cases hrun; exact hlooped
        | none => rw [heffective] at hrun; cases hrun
      · cases hrun
        exact hlooped

/-- The handle of a `nativeConfigure` has no error when the options are set. -/
theorem connecting_begins (c : Configure) (t : Transfer) :
    (c.connecting t).ctrl.env = ⟨none⟩ ∧ (c.connecting t).ctrl.errorBuffer = [] := by
  unfold Configure.connecting Configure.attach
  dsimp only
  split <;> exact ⟨rfl, rfl⟩

theorem exit_of_nativeConfigure {c : Configure} (hbusy : t.ctrl.busy = false)
    (hrun : Transfer.nativeConfigure c t = (t', some returned)) :
    (c.urlBufferOk = false ∧ t'.ctrl.env = ⟨some (.byCallback .oom none 0)⟩) ∨
      (c.urlBufferOk = true ∧
        ∃ s, ConnectExit c (c.connecting t) s ∧ t'.ctrl.env = s.ctrl.env) := by
  rw [Transfer.nativeConfigure, Transfer.acquire_free hbusy] at hrun
  obtain ⟨s, url, hbody, hrun⟩ := bind_eq_some hrun
  cases hrun
  rw [Transfer.configureBody_eq] at hbody
  cases hurl : c.urlBufferOk with
  | false =>
    rw [if_pos hurl] at hbody
    cases hbody
    exact .inl ⟨rfl, rfl⟩
  | true =>
    rw [if_neg (ne_false_of_eq_true hurl)] at hbody
    exact .inr ⟨rfl, s, exit_of_connect hbody, rfl⟩

end Ends
end Chttpc
