import Chttpc.CallRules
import Chttpc.TryLock

/-!
# The native methods in steps

Each method of the handle, cut where another thread may move: behind every access to the handle,
every function of libcurl and every callback.  The cuts follow the methods line by line, and say
at each step that the lock is not given back (`Cut`); `Call.behind` puts them together: a call
tries to take the lock, and what it does behind it is the method.

`write` is the one method that reads its answer when it has given the lock back, and the one with
an exit that keeps it.
-/

namespace Chttpc
open Program TryLock

/-- A method has the lock. -/
def Busy (t : Transfer) : Prop := t.ctrl.busy = true

theorem CurlData.busy_eq_of_io_eq {ctrl ctrl' : CurlData} (h : ctrl'.io = ctrl.io) :
    ctrl'.busy = ctrl.busy := congrArg (·.busy) (wire_eq_of_io_eq h)

namespace Busy
open Transfer

protected theorem invariant : Invariant Busy fun _ => True where
  io := fun _ _ hio h => (CurlData.busy_eq_of_io_eq hio).trans h
  receive := by
    intro t n _ _ h
    show (t.ctrl.writeCallback t.platform (t.curl.offer n)).ctrl.busy = true
    rw [CurlData.writeCallback_eq]
    exact h
  send := by
    intro t capacity _ _ h
    unfold Busy sendChunk
    dsimp only
    split
    · rw [CurlData.readCallback_eq]
      exact h
    · exact h
  wait := fun _ _ h => h

theorem locked {method : Transfer → Option (CurlData × Returned)} (h : Framed method) :
    Keeps Busy (fun t => match method t with
      | some (ctrl, result) => ({ t with ctrl }, some result)
      | none => (t, none) : Program Transfer Returned) := by
  refine keeps_iff.mpr fun t ht => ?_
  show Busy (match method t with
    | some (ctrl, result) => ({ t with ctrl }, some result)
    | none => (t, none) : Transfer × Option Returned).1
  cases hmethod : method t with
  | none => exact ht
  | some answer => exact (congrArg CurlData.busy (h t _ _ hmethod)).trans ht

end Busy

namespace Transfer

theorem busy_attach (c : Configure) (t : Transfer) : (c.attach t).ctrl.busy = t.ctrl.busy := by
  unfold Configure.attach
  dsimp only
  split <;> rfl

theorem busy_detach (t : Transfer) : t.detach.ctrl.busy = t.ctrl.busy := by
  unfold detach
  split <;> rfl

end Transfer

/-! ## `curlPerform` -/

namespace Transfer.InSteps

/-- What changes the handle and leaves the lock alone. -/
def update {f : CurlData → CurlData} (h : ∀ ctrl : CurlData, (f ctrl).busy = ctrl.busy) :
    Cut Busy (Transfer.update f) := .step (Keeps.update fun t ht => (h t.ctrl).trans ht)

def get {α : Type} (f : CurlData → α) : Cut Busy (Transfer.get f) := .step (Keeps.read _)

/-- The callbacks that libcurl makes, one by one, and its return. -/
def invokeAll {α : Type} (returns : Option α) : (callbacks : List Callback) →
    Cut Busy (.call (·.invokeAll callbacks) returns)
  | [] => .step (Keeps.call fun _ ht => ht)
  | callback :: callbacks =>
      (Cut.bind (p := .update fun t : Transfer => t.invoke callback)
        (.step (Keeps.update fun _ ht => Busy.invariant.invoke trivial ht))
        fun _ => invokeAll returns callbacks).congr rfl

def curlMultiPerform (perform : Perform) : Cut Busy (Transfer.curlMultiPerform perform) :=
  invokeAll perform.returns perform.callbacks

def curlEasyPause (pause : Pause) : Cut Busy (Transfer.curlEasyPause pause) :=
  (Cut.bind (p := .update fun t : Transfer => { t with curl := t.curl.unpause })
    (.step (Keeps.update fun _ ht => ht)) fun _ => invokeAll pause.returns pause.callbacks).congr rfl

def checkResult (messages : List CURLMsg) : Cut Busy (Transfer.checkResult messages) :=
  .step (Busy.invariant.checkResult messages)

theorem busy_handleMultiError (lastError : CURLMcode) (ctrl : CurlData) :
    (ctrl.handleMultiError lastError).busy = ctrl.busy :=
  CurlData.busy_eq_of_io_eq (ctrl.io_handleMultiError lastError)

theorem busy_handleEasyError (lastError : CURLcode) (ctrl : CurlData) :
    (ctrl.handleEasyError lastError).busy = ctrl.busy :=
  CurlData.busy_eq_of_io_eq (ctrl.io_handleEasyError lastError)

def account (it : Iteration) (timer : Timer) : Cut Busy (Transfer.account it timer) :=
  .ite (.bind (get _) fun _ => .return_ _) <|
    .ite (.bind (update fun ctrl => CurlData.busy_eq_of_io_eq (ctrl.io_throwTimeout _)) fun _ =>
      .return_ _) (.return_ _)

def await (it : Iteration) (timer : Timer) : Cut Busy (Transfer.await it timer) :=
  .ite
    (.bind (.step (Keeps.update fun _ ht => ht)) fun _ =>
      .bind (.step (Keeps.call fun _ ht => ht)) fun answer =>
        .ite (.bind (update (busy_handleMultiError answer.1)) fun _ => .return_ _) (account it _))
    (account it timer)

def iterate (it : Iteration) (timer : Timer) : Cut Busy (Transfer.iterate it timer) :=
  .ite (.return_ _) <|
    .bind (curlMultiPerform it.perform) fun answer =>
      .ite (.bind (update (busy_handleMultiError answer.1)) fun _ => .return_ _) <|
        .bind (checkResult it.messages) fun _ =>
          .ite (.return_ _) <|
            .bind (.step (Keeps.read _)) fun _ =>
              .ite (.return_ _) <| .ite (.return_ _) <| .ite (.return_ _) <| await it timer

def iterateAll : (iterations : List Iteration) → (timer : Timer) →
    Cut Busy (Transfer.iterateAll iterations timer)
  | [], _ => .step Keeps.inside
  | it :: iterations, timer =>
      .bind (iterate it timer) fun
        | .stop result => .return_ result
        | .again timer => iterateAll iterations timer

def curlPerform (loop : Loop) : Cut Busy (Transfer.curlPerform loop) :=
  .bind (get _) fun _ => iterateAll _ _

/-! ## The methods -/

def hasEnded (running : Nat) (messages : List CURLMsg) :
    Cut Busy (Transfer.hasEnded running messages) := .ite (checkResult messages) (.return_ _)

def connect (c : Configure) : Cut Busy (Transfer.connect c) :=
  .ite (.return_ _) <|
    .bind (curlMultiPerform c.perform) fun answer =>
      .ite (.bind (update (busy_handleMultiError answer.1)) fun _ => .return_ _) <|
        .bind (hasEnded answer.2 c.messages) fun _ =>
          .ite (.return_ _) <|
            .bind (curlPerform c.loop) fun _ =>
              .ite (.return_ _) <|
                .ite
                  (.bind (.step (Keeps.read _)) fun platform =>
                    match c.effective platform with
                    | some url => .return_ url
                    | none => .step Keeps.inside)
                  (.return_ _)

def configureBody (c : Configure) : Cut Busy (Transfer.configureBody c) :=
  .bind (update fun _ => rfl) fun _ =>
    .ite
      (.bind (update fun ctrl => CurlData.busy_eq_of_io_eq ctrl.io_oomThrow) fun _ => .return_ _)
      (.bind (.step (Keeps.update fun t ht => (busy_attach c t).trans ht)) fun _ => connect c)

def resume {flag : StateBits → Bool} {clear : CurlData → CurlData} (pause : Pause)
    (h : ∀ ctrl : CurlData, (clear ctrl).busy = ctrl.busy) :
    Cut Busy (Transfer.resume flag clear pause) :=
  .bind (get _) fun _ =>
    .ite (.bind (update h) fun _ => curlEasyPause pause) (.return_ _)

def readResult (count : Int) : Cut Busy (Transfer.readResult count) := get _

def readBody (r : BodyCall) : Cut Busy (Transfer.readBody r) :=
  .bind (update fun _ => rfl) fun _ =>
    .bind (resume r.pause fun _ => rfl) fun result =>
      .ite (.bind (update (busy_handleEasyError result)) fun _ => .return_ _) <|
        .ite (readResult r.count) <|
          .bind (curlPerform r.loop) fun _ =>
            .bind (get _) fun _ => .ite (.return_ _) (readResult r.count)

def writeBody (w : BodyCall) : Cut Busy (Transfer.writeBody w) :=
  .bind (update fun _ => rfl) fun _ =>
    .bind (resume w.pause fun _ => rfl) fun result =>
      .ite (update (busy_handleEasyError result)) <|
        .ite (.return_ _) <|
          .bind (get _) fun _ =>
            .ite (.bind (curlPerform w.loop) fun _ => .return_ _) (.return_ _)

def closeBody (c : Close) : Cut Busy (Transfer.closeBody c) :=
  .bind (update fun _ => rfl) fun _ =>
    .bind (.step (Keeps.update fun _ ht => ht)) fun _ =>
      .bind (resume c.pause fun _ => rfl) fun result =>
        .ite (update (busy_handleEasyError result)) <|
          .bind (get _) fun _ =>
            .ite (.return_ _) (.bind (curlPerform c.loop) fun _ => .return_ _)

end Transfer.InSteps

/-! ## The calls -/

/-- `RELEASE(ctrl->busy)`, as a change of the state. -/
def Transfer.released (t : Transfer) : Transfer := t.modify fun ctrl => { ctrl with busy := false }

/-- All calls but `write` know their answer when they give the lock back. -/
def Call.Settled : Call → Prop
  | .write _ => False
  | _ => True

/-- The method ends the call, cut into steps. -/
abbrev Call.Steps (call : Call) (method : Program Transfer Returned) : Type 1 :=
  Leads Busy Transfer.released (fun exit => call.Settled → exit.Settled) method

namespace Call.Steps
open Transfer.InSteps
variable {call : Call}

/-- The last lines of a method: it gives the lock back and returns. -/
def returned (a : Returned) : call.Steps (Transfer.release >>= fun _ => pure a) :=
  .exit (.release fun _ => a) fun _ _ _ => rfl

/-- The last lines of a `write`, which reads its answer behind the lock. -/
def writeReturned (w : BodyCall) :
    (Call.write w).Steps (do
      Transfer.release
      let countToWrite ← Transfer.get (·.countToWrite)
      pure (.int (w.count - countToWrite))) :=
  .exit (Exit.release fun t : Transfer => Returned.int (w.count - t.ctrl.countToWrite)) False.elim

def writeOpen (w : BodyCall) : (Call.write w).Steps (Transfer.writeOpen w) :=
  .bind (writeBody w) fun _ => .bind (update fun _ => rfl) fun _ => writeReturned w

/-- The exit that keeps the lock. -/
def writeClosed (w : BodyCall) :
    (Call.write w).Steps (do
      Transfer.update (·.throwOther (.literal []) .closed)
      pure (.int (-1))) :=
  .bind (update fun _ => rfl) fun _ => .exit (Exit.keep (Returned.int (-1))) False.elim

def reset : Call.reset.Steps (do
    Program.update Transfer.detach
    Transfer.update (·.reset)
    Transfer.release
    pure .void) :=
  .bind (.step (Keeps.update fun t ht => (Transfer.busy_detach t).trans ht)) fun _ =>
    .bind (update fun _ => rfl) fun _ => returned .void

def locked {method : Transfer → Option (CurlData × Returned)} (h : Framed method) :
    call.Steps (do
      let result ← (fun t => match method t with
        | some (ctrl, result) => ({ t with ctrl }, some result)
        | none => (t, none) : Program Transfer Returned)
      Transfer.release
      pure result) :=
  .bind (.step (Busy.locked h)) returned

end Call.Steps

/-- The call tries to take the lock, and what it does behind it is the method. -/
structure Call.Behind (call : Call) : Type 1 where
  failure : Returned
  method : Program Transfer Returned
  run_eq : call.run = Transfer.acquire failure method
  steps : call.Steps method

open Transfer.InSteps Call.Steps in
def Call.behind (call : Call) : call.Behind :=
  match call, call.kind with
  | _, .nativeConfigure c => ⟨_, _, rfl, .bind (configureBody c) fun _ => returned _⟩
  | _, .read r =>
    ⟨_, _, rfl, .bind (readBody r) fun _ => .bind (update fun _ => rfl) fun _ => returned _⟩
  | _, .write w => ⟨_, _, rfl, .bind (get _) fun _ => .ite (writeClosed w) (writeOpen w)⟩
  | _, .closeOutput c =>
    ⟨_, _, rfl, .bind (closeBody c) fun _ => .bind (update fun _ => rfl) fun _ => returned _⟩
  | _, .reset => ⟨_, _, rfl, Call.Steps.reset⟩
  | _, .headers _ failure _ run_eq framed => ⟨failure, _, run_eq, locked framed⟩

end Chttpc
