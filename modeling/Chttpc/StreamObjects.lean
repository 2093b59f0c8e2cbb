import Chttpc.GivenHeaders

/-!
# Streams that are handed out

`getInputStream` and `getOutputStream` hand out objects, and an application may keep them
while the connection is reset and connected again.  Here a stream is an object with a number,
the connection has the numbers of its current streams, and a call is made on any stream that
has ever been created.

Two things could go wrong.  A stream from before a `reset` could read or write the next
transfer of the same handle; it cannot, since `reset` closes the streams it forgets
(`stale_streams_inert`).  And libcurl could perform on a list of request headers that has been
changed since it was given it; it does not (`given_headers`), also where a call fails halfway,
since there are open streams only while the connection is connected, or about to be reset.
Calls that an application makes on the object `getCurl()` returns go around the guards of the
connection and are no part of the model.
-/

namespace Chttpc
open Program Runs

/-- A connection, and the streams it has created. -/
structure Application {equals : JString → JString → Bool} (H : HdrMap equals) where
  /-- The connection; its own stream fields are not used. -/
  conn : CurlConnection H
  /-- The field `inputStream`. -/
  inputStream : Option Nat
  /-- The field `outputStream`. -/
  outputStream : Option Nat
  inputs : List InputStream
  outputs : List OutputStream

/-- A method, on a connection with its streams. -/
abbrev JavaCall {equals : JString → JString → Bool} (H : HdrMap equals) : Type → Type :=
  Throws ConnectionThrown (Application H)

namespace Application
variable {equals : JString → JString → Bool} {H : HdrMap equals} {α : Type}

def new (sdkInt : Nat) (native : Transfer) : Application H :=
  ⟨CurlConnection.new sdkInt native, none, none, [], []⟩

/-- A program of the connection. -/
def onConnection (m : Program (CurlConnection H) α) : Program (Application H) α := fun app =>
  ({ app with conn := (m app.conn).1 }, (m app.conn).2)

/-- A method of the connection. -/
def onMethod (m : Java H α) : JavaCall H α :=
  (onConnection m : Program (Application H) (Except ConnectionThrown α))

/-- `curl.newInputStream()`, if there is no stream. -/
def withInputStream (app : Application H) : Application H :=
  match app.inputStream with
  | some _ => app
  | none =>
      { app with inputStream := some app.inputs.length, inputs := app.inputs ++ [⟨false⟩] }

/-- `curl.newOutputStream()`, if there is no stream. -/
def withOutputStream (app : Application H) : Application H :=
  match app.outputStream with
  | some _ => app
  | none =>
      { app with outputStream := some app.outputs.length, outputs := app.outputs ++ [⟨false⟩] }

/-! ## Getting a stream -/

def createInputStream (e : Connecting) : JavaCall H Unit := do
  onMethod (CurlConnection.connect e)
  Throws.update withInputStream

/-- `getContent()`. -/
def getContent (e : Connecting) : JavaCall H (Option Nat) := do
  createInputStream e
  Throws.read (·.inputStream)

/-- `getContent(Class[])`. -/
def getContentOf (assignable : List Bool) (e : Connecting) : JavaCall H (Option Nat) := do
  if assignable.any id then getContent e else pure none

def getInputStream (e : Connecting) : JavaCall H (Option Nat) := do
  let settings ← Throws.read (·.conn.settings)
  if settings.doInput = false then
    throw (.protocolException "getInputStream can not be called when doInput = false")
  else
    createInputStream e
    let responseCode ← Throws.read (·.conn.responseCode)
    if 400 ≤ responseCode then
      let url ← Throws.read (·.conn.url)
      throw (.serverReturned responseCode url.toString)
    else Throws.read (·.inputStream)

def getErrorStream : JavaCall H (Option Nat) := do
  let connected ← Throws.read (·.conn.connected)
  let responseCode ← Throws.read (·.conn.responseCode)
  if connected = false ∨ responseCode < 400 then pure none
  else
    Throws.update withInputStream
    Throws.read (·.inputStream)

def getOutputStream (e : Connecting) : JavaCall H (Option Nat) := do
  let settings ← Throws.read (·.conn.settings)
  if settings.doOutput = false then
    throw (.protocolException "getOutputStream can not be called when doOutput = false")
  else
    onMethod (CurlConnection.connect e)
    Throws.update withOutputStream
    Throws.read (·.outputStream)

/-! ## Calls on a stream -/

/-- A stream gets to its native method, in which libcurl performs, unless it is stopped. -/
def performs (stopped : Prop) [Decidable stopped] (app : Application H) : Application H :=
  if stopped then app else { app with conn := app.conn.performing }

/-- What a method of a stream throws. -/
def handOn {β : Type} : Except Thrown β → JavaCall H Unit
  | .error e => throw (.stream e)
  | .ok _ => pure ()

/-- `read` of an input stream. -/
def readFrom (i : Nat) (s : StreamCall) (r : BodyCall) : JavaCall H Unit := do
  let inputs ← Throws.read (·.inputs)
  match inputs[i]? with
  | none => pure ()
  | some input =>
      Throws.update (performs (¬ r.InRange ∨ input.closed ∨ s.interruptedBefore))
      let result ← Throws.lift (onConnection (CurlConnection.onHandle
        (Transfer.inputRead { s with closed := input.closed } r)))
      handOn result

/-- `write` to an output stream. -/
def writeTo (i : Nat) (s : StreamCall) (w : BodyCall) : JavaCall H Unit := do
  let outputs ← Throws.read (·.outputs)
  match outputs[i]? with
  | none => pure ()
  | some output =>
      Throws.update (performs (¬ w.InRange ∨ output.closed ∨ s.interruptedBefore))
      let result ← Throws.lift (onConnection (CurlConnection.onHandle
        (Transfer.outputWrite { s with closed := output.closed } w)))
      handOn result

/-- `close` of an input stream. -/
def closeInput (i : Nat) : JavaCall H Unit :=
  Throws.update fun app => { app with inputs := app.inputs.set i ⟨true⟩ }

/-- `CurlOutputStream.close`, of a stream that is open. -/
def closeOpen (i : Nat) (c : Closing) : JavaCall H (Except Thrown Int) := do
  Throws.update fun app =>
    ({ app with outputs := app.outputs.set i ⟨true⟩ }).performs c.interruptedBefore
  Throws.lift (onConnection (CurlConnection.onHandle (CurlConnection.closeOpen c)))

/-- `close` of an output stream. -/
def closeOutput (i : Nat) (c : Closing) : JavaCall H Unit := do
  let outputs ← Throws.read (·.outputs)
  match outputs[i]? with
  | none => pure ()
  | some output =>
      if output.closed then pure ()
      else
        let result ← closeOpen i c
        handOn result

/-- `output.close()`, where an `IOException` is caught. -/
def closeQuietly (i : Nat) (c : Closing) : JavaCall H Unit := do
  let outputs ← Throws.read (·.outputs)
  match outputs[i]? with
  | none => pure ()
  | some output =>
      if output.closed then pure ()
      else
        let result ← closeOpen i c
        match CurlConnection.uncaught result with
        | some e => throw (.stream e)
        | none => pure ()

/-! ## `reset` -/

/-- The first part of `reset`: the input stream is forgotten and closed. -/
def dropInput (app : Application H) : Application H :=
  match app.inputStream with
  | none => app
  | some i => { app with inputStream := none, inputs := app.inputs.set i ⟨true⟩ }

def reset (c : Closing) : JavaCall H Unit := do
  Throws.update fun app =>
    { app with conn := { app.conn with connected := false, responseCode := -1, unfinished := true } }
  Throws.update dropInput
  let outputStream ← Throws.read (·.outputStream)
  Throws.update fun app => { app with outputStream := none }
  match outputStream with
  | none => onMethod CurlConnection.resetHandle
  | some i =>
      closeQuietly i c
      onMethod CurlConnection.resetHandle

def disconnect (c : Closing) : JavaCall H Unit := do
  reset c
  onMethod (CurlConnection.editHeaders Transfer.clearHeaders)

end Application

/-! ## Calls in turn -/

/-- A call on the connection or on a stream that it has created. -/
inductive ApplicationCall
  | plain (call : ConnectionCall) (h : call.Plain)
  | getContent (e : Connecting)
  | getContentOf (assignable : List Bool) (e : Connecting)
  | getInputStream (e : Connecting)
  | getErrorStream
  | getOutputStream (e : Connecting)
  | readFrom (i : Nat) (s : StreamCall) (r : BodyCall)
  | writeTo (i : Nat) (s : StreamCall) (w : BodyCall)
  | closeInput (i : Nat)
  | closeOutput (i : Nat) (c : Closing)
  | reset (c : Closing)
  | disconnect (c : Closing)

section Calls
variable {equals : JString → JString → Bool} {H : HdrMap equals}

/-- A method, without what it returns or throws. -/
def ignore {α : Type} (method : JavaCall H α) : Program (Application H) Unit := fun app =>
  ((method app).1, (method app).2.map fun _ => ())

def ApplicationCall.run : ApplicationCall → Program (Application H) Unit
  | .plain call _ => Application.onConnection call.run
  | .getContent e => ignore (Application.getContent e)
  | .getContentOf assignable e => ignore (Application.getContentOf assignable e)
  | .getInputStream e => ignore (Application.getInputStream e)
  | .getErrorStream => ignore Application.getErrorStream
  | .getOutputStream e => ignore (Application.getOutputStream e)
  | .readFrom i s r => ignore (Application.readFrom i s r)
  | .writeTo i s w => ignore (Application.writeTo i s w)
  | .closeInput i => ignore (Application.closeInput i)
  | .closeOutput i c => ignore (Application.closeOutput i c)
  | .reset c => ignore (Application.reset c)
  | .disconnect c => ignore (Application.disconnect c)

/-- Makes the calls one after another; what one throws does not stop the others. -/
def runApplication (calls : List ApplicationCall) : Program (Application H) Unit :=
  Program.forEach ApplicationCall.run calls

/-! ## The invariant -/

namespace Application
open CurlConnection

/-- **The invariant**: an open stream is the current one, and there are current streams only
while the connection is connected. -/
structure Sound (app : Application H) : Prop where
  inputs : ∀ i input, app.inputs[i]? = some input → input.closed = false → app.inputStream = some i
  outputs : ∀ i output, app.outputs[i]? = some output → output.closed = false →
    app.outputStream = some i
  inputConnected : app.inputStream ≠ none → app.conn.connected = true
  outputConnected : app.outputStream ≠ none → app.conn.connected = true
  inStep : app.conn.InStep

theorem Sound.new (sdkInt : Nat) (native : Transfer) :
    Sound (Application.new sdkInt native : Application H) where
  inputs := by simp [Application.new]
  outputs := by simp [Application.new]
  inputConnected := fun h => absurd rfl h
  outputConnected := fun h => absurd rfl h
  inStep := InStep.new sdkInt native

section Steps
variable {app : Application H} {conn : CurlConnection H} {α : Type}

/-- **Calling the connection.** -/
theorem Sound.call (h : Sound app) (hadvances : Advances app.conn conn) : Sound { app with conn } :=
  ⟨h.inputs, h.outputs, fun hne => hadvances.2 (h.inputConnected hne),
    fun hne => hadvances.2 (h.outputConnected hne), hadvances.1⟩

theorem keeps_onConnection {m : Program (CurlConnection H) α}
    (hm : ∀ conn, InStep conn → Advances conn (m conn).1) : Keeps Sound (onConnection m) :=
  keeps_iff.mpr fun app h => h.call (hm app.conn h.inStep)

/-- A native method that leaves the list of request headers alone. -/
theorem keeps_onHandle {m : Program Transfer α} (hm : Keeps Transfer.Handed m) :
    Keeps Sound (onConnection (onHandle m) : Program (Application H) α) :=
  keeps_onConnection fun conn h => keeps_iff.mp ((linked_advances conn).program hm) conn ⟨h, id⟩

/-- When `connect` has returned, the connection is connected. -/
theorem triple_connect (e : Connecting) :
    Triple Sound (onMethod (connect e) : JavaCall H Unit)
      (fun r app => Sound app ∧ (r.isOk = true → app.conn.connected = true)) Sound := by
  intro app h
  have hconnect := establishes_connect h.inStep e app.conn rfl
  have hcall : onMethod (connect e) app =
    ({ app with conn := (connect e app.conn).1 }, (connect e app.conn).2) := rfl
  rw [hcall]
  rcases hrun : connect e app.conn with ⟨conn, _ | r⟩
  · rw [hrun] at hconnect
    exact h.call hconnect
  · rw [hrun] at hconnect
    exact ⟨h.call hconnect.1, fun hr => (hconnect.2 hr).2⟩

theorem getElem?_concat_cases {β : Type} {l : List β} {a b : β} {i : Nat}
    (h : (l ++ [a])[i]? = some b) : l[i]? = some b ∨ i = l.length := by
  by_cases hi : i < l.length
  · exact Or.inl (by rwa [List.getElem?_append_left hi] at h)
  · have hlt := (List.getElem?_eq_some_iff.mp h).1
    rw [List.length_append, List.length_singleton] at hlt
    exact Or.inr (by omega)

theorem Sound.withInputStream (h : Sound app) (hconnected : app.conn.connected = true) :
    Sound app.withInputStream := by
  unfold Application.withInputStream
  split
  · exact h
  · rename_i hnone
    refine ⟨fun i input hi hopen => ?_, h.outputs, fun _ => hconnected, h.outputConnected,
      h.inStep⟩
    rcases getElem?_concat_cases hi with hi | rfl
    · cases hnone.symm.trans (h.inputs i input hi hopen)
    · rfl

theorem Sound.withOutputStream (h : Sound app) (hconnected : app.conn.connected = true) :
    Sound app.withOutputStream := by
  unfold Application.withOutputStream
  split
  · exact h
  · rename_i hnone
    refine ⟨h.inputs, fun i output hi hopen => ?_, h.inputConnected, fun _ => hconnected,
      h.inStep⟩
    rcases getElem?_concat_cases hi with hi | rfl
    · cases hnone.symm.trans (h.outputs i output hi hopen)
    · rfl

/-- libcurl performs on the list that it has been given. -/
theorem Sound.performs {stopped : Prop} [Decidable stopped] (h : Sound app)
    (hhanded : ¬ stopped → app.conn.Handed) : Sound (app.performs stopped) := by
  unfold Application.performs
  split
  · exact h
  · rename_i hnot
    exact ⟨h.inputs, h.outputs, h.inputConnected, h.outputConnected, h.inStep.performing (hhanded hnot)⟩

theorem getElem?_set_cases {β : Type} {l : List β} {a b : β} {i j : Nat}
    (h : (l.set i a)[j]? = some b) : b = a ∨ l[j]? = some b ∧ j ≠ i := by
  by_cases hij : j = i
  · subst hij
    have hlt := (List.getElem?_eq_some_iff.mp h).1
    rw [List.length_set] at hlt
    rw [List.getElem?_set_self hlt] at h
    exact Or.inl (Option.some.inj h).symm
  · rw [List.getElem?_set_ne (Ne.symm hij)] at h
    exact Or.inr ⟨h, hij⟩

theorem Sound.closeInput (h : Sound app) (i : Nat) :
    Sound { app with inputs := app.inputs.set i ⟨true⟩ } := by
  refine ⟨fun j input hj hopen => ?_, h.outputs, h.inputConnected, h.outputConnected, h.inStep⟩
  rcases getElem?_set_cases hj with rfl | ⟨hj, -⟩
  · cases hopen
  · exact h.inputs j input hj hopen

theorem Sound.closeOutput (h : Sound app) (i : Nat) :
    Sound { app with outputs := app.outputs.set i ⟨true⟩ } := by
  refine ⟨h.inputs, fun j output hj hopen => ?_, h.inputConnected, h.outputConnected, h.inStep⟩
  rcases getElem?_set_cases hj with rfl | ⟨hj, -⟩
  · cases hopen
  · exact h.outputs j output hj hopen

end Steps

/-! ## Every call keeps it -/

section Methods
variable {e : Connecting} {c : Closing} {α : Type}

theorem keeps_createInputStream (e : Connecting) :
    Keeps Sound (createInputStream e : JavaCall H Unit) :=
  Throws.triple_bind (triple_connect e)
    (fun _ => Throws.triple_update fun _ h => h.1.withInputStream (h.2 rfl)) fun _ _ h => h.1

theorem keeps_getContent (e : Connecting) :
    Keeps Sound (getContent e : JavaCall H (Option Nat)) :=
  Throws.keeps_bind (keeps_createInputStream e) fun _ => Throws.keeps_read _

theorem keeps_getInputStream (e : Connecting) :
    Keeps Sound (getInputStream e : JavaCall H (Option Nat)) := by
  refine Throws.keeps_bind (Throws.keeps_read _) fun settings => ?_
  refine Keeps.ite (fun _ => Throws.keeps_throw _) fun _ => ?_
  refine Throws.keeps_bind (keeps_createInputStream e) fun _ => ?_
  refine Throws.keeps_bind (Throws.keeps_read _) fun responseCode => ?_
  refine Keeps.ite (fun _ => ?_) fun _ => Throws.keeps_read _
  exact Throws.keeps_bind (Throws.keeps_read _) fun _ => Throws.keeps_throw _

/-- `getErrorStream` asks itself whether the connection is connected. -/
theorem keeps_getErrorStream : Keeps Sound (getErrorStream : JavaCall H (Option Nat)) := by
  refine Throws.triple_read_bind fun connected => Throws.triple_read_bind fun responseCode => ?_
  refine Triple.ite (fun _ => Throws.triple_pure fun _ h => h.1.1) fun hneither => ?_
  refine Throws.triple_update_bind (M := Sound) (fun app h => ?_) (Throws.keeps_read _)
  refine h.1.1.withInputStream (h.1.2.trans ?_)
  exact Bool.not_eq_false _ ▸ fun hc => hneither (Or.inl hc)

theorem keeps_getOutputStream (e : Connecting) :
    Keeps Sound (getOutputStream e : JavaCall H (Option Nat)) := by
  refine Throws.keeps_bind (Throws.keeps_read _) fun settings => ?_
  refine Keeps.ite (fun _ => Throws.keeps_throw _) fun _ => ?_
  refine Throws.triple_bind (triple_connect e) (fun _ => ?_) fun _ _ h => h.1
  exact Throws.triple_update_bind (M := Sound) (fun _ h => h.1.withOutputStream (h.2 rfl))
    (Throws.keeps_read _)

theorem keeps_handOn {β : Type} (result : Except Thrown β) :
    Keeps Sound (handOn result : JavaCall H Unit) := by
  cases result with
  | error e => exact Throws.keeps_throw _
  | ok _ => exact Throws.keeps_pure _

theorem keeps_readFrom (i : Nat) (s : StreamCall) (r : BodyCall) :
    Keeps Sound (readFrom i s r : JavaCall H Unit) := by
  refine Throws.triple_read_bind fun inputs => ?_
  cases hi : inputs[i]? with
  | none => exact Throws.triple_pure fun _ h => h.1
  | some input =>
    refine Throws.triple_update_bind (M := Sound) (fun app h => ?_)
      (Throws.keeps_bind (Throws.keeps_lift (keeps_onHandle (quiet_handed.inputRead _ r)))
        keeps_handOn)
    refine h.1.performs fun hnot => h.1.inStep.handed (h.1.inputConnected ?_)
    rw [h.1.inputs i input (h.2 ▸ hi)
      (Bool.eq_false_iff.mpr fun hclosed => hnot (Or.inr (Or.inl hclosed)))]
    exact nofun

theorem keeps_writeTo (i : Nat) (s : StreamCall) (w : BodyCall) :
    Keeps Sound (writeTo i s w : JavaCall H Unit) := by
  refine Throws.triple_read_bind fun outputs => ?_
  cases hi : outputs[i]? with
  | none => exact Throws.triple_pure fun _ h => h.1
  | some output =>
    refine Throws.triple_update_bind (M := Sound) (fun app h => ?_)
      (Throws.keeps_bind (Throws.keeps_lift (keeps_onHandle (quiet_handed.outputWrite _ w)))
        keeps_handOn)
    refine h.1.performs fun hnot => h.1.inStep.handed (h.1.outputConnected ?_)
    rw [h.1.outputs i output (h.2 ▸ hi)
      (Bool.eq_false_iff.mpr fun hclosed => hnot (Or.inr (Or.inl hclosed)))]
    exact nofun

/-- Closing a stream that is open sets its flag, whatever becomes of the native call. -/
theorem triple_closeOpen (i : Nat) (c : Closing) {P : Application H → Prop}
    (h : ∀ app, P app →
      Sound (({ app with outputs := app.outputs.set i ⟨true⟩ }).performs c.interruptedBefore)) :
    Triple P (closeOpen i c : JavaCall H (Except Thrown Int)) (fun _ => Sound) Sound :=
  Throws.triple_update_bind (M := Sound) h
    (Throws.keeps_lift (keeps_onHandle (quiet_handed.closeOpen c)))

theorem keeps_closeOutput (i : Nat) (c : Closing) :
    Keeps Sound (closeOutput i c : JavaCall H Unit) := by
  refine Throws.triple_read_bind fun outputs => ?_
  cases hi : outputs[i]? with
  | none => exact Throws.triple_pure fun _ h => h.1
  | some output =>
    refine Triple.ite (fun _ => Throws.triple_pure fun _ h => h.1) fun hopen => ?_
    refine Throws.triple_bind (triple_closeOpen i c fun app h => ?_)
      (keeps_handOn) fun _ _ => id
    refine (h.1.closeOutput i).performs fun _ => h.1.inStep.handed (h.1.outputConnected ?_)
    rw [h.1.outputs i output (h.2 ▸ hi) (Bool.not_eq_true _ ▸ hopen)]
    exact nofun

/-! ### `reset` -/

/-- While the connection is reset it is no longer connected, and the output stream that it has
had may still be open. -/
structure Resetting (output : Option Nat) (app : Application H) : Prop where
  inputs : ∀ (i : Nat) input, app.inputs[i]? = some input → input.closed = true
  outputs : ∀ (i : Nat) out, app.outputs[i]? = some out → out.closed = false → output = some i
  inputStream : app.inputStream = none
  connected : app.conn.connected = false
  handed : output ≠ none → app.conn.Handed
  given : Given app.conn.events

/-- A connection that is not connected, with no stream open. -/
def Down (app : Application H) : Prop := Sound app ∧ app.conn.connected = false

theorem Resetting.down {app : Application H} {output : Option Nat} (h : Resetting output app)
    (houtput : app.outputStream = none)
    (hclosed : ∀ (i : Nat) out, app.outputs[i]? = some out → out.closed = true) : Down app where
  left :=
    { inputs := fun i input hi hopen => Bool.noConfusion ((h.inputs i input hi).symm.trans hopen)
      outputs := fun i out hi hopen => Bool.noConfusion ((hclosed i out hi).symm.trans hopen)
      inputConnected := fun hne => absurd h.inputStream hne
      outputConnected := fun hne => absurd houtput hne
      inStep := ⟨fun hc => Bool.noConfusion (h.connected.symm.trans hc), h.given⟩ }
  right := h.connected

/-- The input stream is forgotten and closed. -/
theorem Sound.dropInput {app : Application H} (h : Sound app) {conn : CurlConnection H}
    (hconnected : conn.connected = false) (hnative : conn.native = app.conn.native)
    (hevents : conn.events = app.conn.events) :
    Resetting ({ app with conn }).dropInput.outputStream ({ app with conn }).dropInput := by
  have hgiven : Given conn.events := hevents ▸ h.inStep.given
  have hhanded : app.outputStream ≠ none → conn.Handed := fun hne =>
    have hold := h.inStep.handed (h.outputConnected hne)
    ⟨hnative ▸ hold.native, hevents ▸ hold.since⟩
  unfold Application.dropInput
  cases hinput : app.inputStream with
  | none =>
    refine ⟨fun i input hi => ?_, h.outputs, rfl, hconnected, hhanded, hgiven⟩
    by_contra hopen
    cases hinput.symm.trans (h.inputs i input hi (Bool.not_eq_true _ ▸ hopen))
  | some k =>
    refine ⟨fun i input hi => ?_, h.outputs, rfl, hconnected, hhanded, hgiven⟩
    rcases getElem?_set_cases hi with rfl | ⟨hi, hne⟩
    · rfl
    · by_contra hopen
      have hcurrent := hinput.symm.trans (h.inputs i input hi (Bool.not_eq_true _ ▸ hopen))
      exact hne (Option.some.inj hcurrent).symm

/-- A program that does not connect. -/
theorem keeps_down {m : Program (CurlConnection H) α} (hm : Keeps Resting m) :
    Keeps Down (onConnection m : Program (Application H) α) :=
  keeps_iff.mpr fun app h =>
    have hresting := keeps_iff.mp hm app.conn ⟨h.1.inStep, h.2⟩
    ⟨h.1.call ⟨hresting.1, fun hc => Bool.noConfusion (h.2.symm.trans hc)⟩, hresting.2⟩

theorem keeps_down_resetHandle : Keeps Down (onMethod resetHandle : JavaCall H Unit) :=
  keeps_down keeps_resting_resetHandle

/-- `output.close()` of the stream that `reset` has forgotten. -/
theorem triple_closeQuietly (i : Nat) (c : Closing) :
    Triple (fun app : Application H => Resetting (some i) app ∧ app.outputStream = none)
      (closeQuietly i c : JavaCall H Unit) (fun _ => Down) Down := by
  refine Throws.triple_read_bind fun outputs => ?_
  cases hi : outputs[i]? with
  | none =>
    refine Throws.triple_pure fun app h => h.1.1.down h.1.2 fun j out hj => ?_
    by_contra hopen
    obtain rfl := Option.some.inj (h.1.1.outputs j out hj (Bool.not_eq_true _ ▸ hopen))
    rw [h.2, hi] at hj
    cases hj
  | some output =>
    refine Triple.ite (fun hclosed => Throws.triple_pure fun app h => h.1.1.down h.1.2
      fun j out hj => ?_) fun _ => ?_
    · by_contra hopen
      obtain rfl := Option.some.inj (h.1.1.outputs j out hj (Bool.not_eq_true _ ▸ hopen))
      rw [h.2, hi] at hj
      cases hj
      exact hopen hclosed
    · refine Throws.triple_bind (Q := fun _ => Down) (Throws.triple_update_bind (M := Down)
        (fun app h => ?_) (Throws.keeps_lift (keeps_down
          (linked_resting.program (quiet_handed.closeOpen c))))) (fun result => ?_)
        fun _ _ => id
      · have hclosing : Resetting (some i) { app with outputs := app.outputs.set i ⟨true⟩ } := by
          refine ⟨h.1.1.inputs, fun j out hj hopen => ?_, h.1.1.inputStream, h.1.1.connected,
            h.1.1.handed, h.1.1.given⟩
          rcases getElem?_set_cases hj with rfl | ⟨hj, -⟩
          · cases hopen
          · exact h.1.1.outputs j out hj hopen
        have hdown := hclosing.down h.1.2 fun j out hj => ?_
        · refine ⟨hdown.1.performs fun _ => h.1.1.handed (Option.some_ne_none i), ?_⟩
          unfold Application.performs
          split
          · exact hdown.2
          · exact hdown.2
        · rcases getElem?_set_cases hj with rfl | ⟨hj, hne⟩
          · rfl
          · by_contra hopen
            have hcurrent := h.1.1.outputs j out hj (Bool.not_eq_true _ ▸ hopen)
            exact hne (Option.some.inj hcurrent).symm
      · cases uncaught result with
        | some e => exact Throws.keeps_throw _
        | none => exact Throws.keeps_pure _

/-- **`reset`** takes the connection down, and closes the streams it has handed out. -/
theorem triple_reset (c : Closing) :
    Triple Sound (reset c : JavaCall H Unit) (fun _ => Down) Down := by
  refine Throws.triple_update_bind (M := fun app => ∃ old conn, Sound old ∧
    conn.connected = false ∧ conn.native = old.conn.native ∧ conn.events = old.conn.events ∧
    app = { old with conn }) (fun app h => ⟨app, _, h, rfl, rfl, rfl, rfl⟩) ?_
  refine Throws.triple_update_bind (M := fun app => Resetting app.outputStream app) ?_ ?_
  · rintro app ⟨old, conn, h, hconnected, hnative, hevents, rfl⟩
    exact h.dropInput hconnected hnative hevents
  refine Throws.triple_read_bind fun outputStream => ?_
  refine Throws.triple_update_bind
    (M := fun app => Resetting outputStream app ∧ app.outputStream = none) (fun app h => ?_) ?_
  · obtain ⟨h, rfl⟩ := h
    exact ⟨⟨h.inputs, h.outputs, h.inputStream, h.connected, h.handed, h.given⟩, rfl⟩
  cases outputStream with
  | none =>
    refine keeps_down_resetHandle.weaken (fun app h => h.1.down h.2 fun i out hi => ?_)
      (fun _ _ => id) fun _ => id
    by_contra hopen
    cases h.1.outputs i out hi (Bool.not_eq_true _ ▸ hopen)
  | some i =>
    exact Throws.triple_bind (triple_closeQuietly i c) (fun _ => keeps_down_resetHandle)
      fun _ _ => id

theorem keeps_disconnect (c : Closing) : Keeps Sound (disconnect c : JavaCall H Unit) := by
  have hdown : Triple Sound (disconnect c : JavaCall H Unit) (fun _ => Down) Down := by
    refine Throws.triple_bind (triple_reset c) (fun _ => ?_) fun _ _ => id
    exact keeps_down (triple_editHeaders _ fun conn h => ⟨h.1.edit h.2 _, h.2⟩)
  exact hdown.weaken (fun _ => id) (fun _ _ h => h.1) fun _ h => h.1

end Methods
end Application

open Application in
/-- **Every call keeps the invariant.** -/
theorem keeps_applicationCall (call : ApplicationCall) :
    Keeps Sound (call.run : Program (Application H) Unit) := by
  have hignore : ∀ {α : Type} {method : JavaCall H α}, Keeps Sound method →
      Keeps Sound (ignore method) :=
    fun hm => keeps_iff.mpr fun app h => keeps_iff.mp hm app h
  cases call with
  | plain call hplain => exact keeps_onConnection fun conn h => h.run hplain
  | getContent e => exact hignore (keeps_getContent e)
  | getContentOf assignable e =>
    exact hignore (Keeps.ite (fun _ => keeps_getContent e) fun _ => Throws.keeps_pure _)
  | getInputStream e => exact hignore (keeps_getInputStream e)
  | getErrorStream => exact hignore keeps_getErrorStream
  | getOutputStream e => exact hignore (keeps_getOutputStream e)
  | readFrom i s r => exact hignore (keeps_readFrom i s r)
  | writeTo i s w => exact hignore (keeps_writeTo i s w)
  | closeInput i => exact hignore (Throws.keeps_update fun _ h => h.closeInput i)
  | closeOutput i c => exact hignore (keeps_closeOutput i c)
  | reset c =>
    exact hignore ((triple_reset c).weaken (fun _ => id) (fun _ _ h => h.1) fun _ h => h.1)
  | disconnect c => exact hignore (keeps_disconnect c)

/-- The state after the calls, or inside the last of them. -/
def reached (sdkInt : Nat) (native : Transfer) (calls : List ApplicationCall) : Application H :=
  (runApplication calls (Application.new sdkInt native)).1

theorem sound_run (sdkInt : Nat) (native : Transfer) (calls : List ApplicationCall) :
    Application.Sound (reached sdkInt native calls : Application H) :=
  keeps_iff.mp (Keeps.forEach fun call _ => keeps_applicationCall call) _ (Application.Sound.new _ _)

open Application

/-- A program that does nothing to the handle does nothing. -/
theorem onHandle_idle {α : Type} {m : Program Transfer α} {app : Application H} {a : α}
    (h : m app.conn.native = (app.conn.native, some a)) :
    (onConnection (CurlConnection.onHandle m) : Program (Application H) α) app = (app, some a) := by
  have hsame : CurlConnection.onHandle m app.conn = (app.conn, some a) := by
    rw [CurlConnection.onHandle, h]
  rw [onConnection, hsame]

theorem throws_lift_idle {ε σ α : Type} {m : Program σ α} {s : σ} {a : α} (h : m s = (s, some a)) :
    (Throws.lift m : Throws ε σ α) s = (s, some (.ok a)) := by
  rw [Throws.lift, h]
  rfl

/-- What a method of a stream throws if it does not get to its native method. -/
def refusal (inRange closed : Prop) [Decidable inRange] [Decidable closed] : Thrown :=
  if inRange then if closed then .alreadyClosed else .interruptedIo 0 else .indexOutOfBounds

/-- Reading that is stopped leaves everything as it is. -/
theorem readFrom_stopped {app : Application H} {i : Nat} {input : InputStream}
    (hi : app.inputs[i]? = some input) {s : StreamCall} {r : BodyCall}
    (hstopped : ¬ r.InRange ∨ input.closed = true ∨ s.interruptedBefore = true) :
    readFrom i s r app =
      (app, some (.error (.stream (refusal r.InRange (input.closed = true))))) := by
  have hread : (Throws.read (·.inputs) : JavaCall H (List InputStream)) app =
    (app, some (.ok app.inputs)) := rfl
  have hperforms : (Throws.update (performs (¬ r.InRange ∨ input.closed ∨ s.interruptedBefore)) :
      JavaCall H Unit) app = (app, some (.ok ())) := by
    rw [Throws.update, performs, if_pos hstopped]
  have hresult : Transfer.inputRead { s with closed := input.closed } r app.conn.native =
      (app.conn.native, some (.error (refusal r.InRange (input.closed = true)))) := by
    rw [Transfer.inputRead, refusal]
    by_cases hrange : r.InRange
    · rw [if_pos hrange, if_pos hrange, Transfer.doRead, Transfer.stream_eq]
      by_cases hclosed : input.closed = true
      · rw [if_pos hclosed, if_pos hclosed]
      · have hinterrupted := (hstopped.resolve_left (not_not.mpr hrange)).resolve_left hclosed
        rw [if_neg hclosed, if_neg hclosed, if_pos hinterrupted]
    · rw [if_neg hrange, if_neg hrange]
      rfl
  rw [readFrom, Throws.bind_ok hread, hi]
  refine (Throws.bind_ok hperforms).trans ?_
  exact Throws.bind_ok (throws_lift_idle (onHandle_idle hresult))

/-- Writing that is stopped leaves everything as it is. -/
theorem writeTo_stopped {app : Application H} {i : Nat} {output : OutputStream}
    (hi : app.outputs[i]? = some output) {s : StreamCall} {w : BodyCall}
    (hstopped : ¬ w.InRange ∨ output.closed = true ∨ s.interruptedBefore = true) :
    writeTo i s w app =
      (app, some (.error (.stream (refusal w.InRange (output.closed = true))))) := by
  have hread : (Throws.read (·.outputs) : JavaCall H (List OutputStream)) app =
    (app, some (.ok app.outputs)) := rfl
  have hperforms : (Throws.update (performs (¬ w.InRange ∨ output.closed ∨ s.interruptedBefore)) :
      JavaCall H Unit) app = (app, some (.ok ())) := by
    rw [Throws.update, performs, if_pos hstopped]
  have hresult : Transfer.outputWrite { s with closed := output.closed } w app.conn.native =
      (app.conn.native, some (.error (refusal w.InRange (output.closed = true)))) := by
    rw [Transfer.outputWrite, refusal]
    by_cases hrange : w.InRange
    · rw [if_pos hrange, if_pos hrange, Transfer.doWrite, bind_apply, Transfer.stream_eq]
      by_cases hclosed : output.closed = true
      · rw [if_pos hclosed, if_pos hclosed]
        rfl
      · have hinterrupted := (hstopped.resolve_left (not_not.mpr hrange)).resolve_left hclosed
        rw [if_neg hclosed, if_neg hclosed, if_pos hinterrupted]
        rfl
    · rw [if_neg hrange, if_neg hrange]
      rfl
  rw [writeTo, Throws.bind_ok hread, hi]
  refine (Throws.bind_ok hperforms).trans ?_
  exact Throws.bind_ok (throws_lift_idle (onHandle_idle hresult))

/-- **A stream that is no longer the current one is inert.**  At any instant of any run of calls
on a connection and on all streams it has created, a call on a stream that the connection has
forgotten leaves everything as it is, the handle and its transfer included: reading and
writing throw `"Already closed"`, or an `IndexOutOfBoundsException`, and closing an input or an
output stream does nothing. -/
theorem stale_streams_inert (sdkInt : Nat) (native : Transfer) (calls : List ApplicationCall) :
    let app : Application H := reached sdkInt native calls
    (∀ i s r, i < app.inputs.length → app.inputStream ≠ some i →
      readFrom i s r app = (app, some (.error (.stream
        (if r.InRange then .alreadyClosed else .indexOutOfBounds))))) ∧
    (∀ i s w, i < app.outputs.length → app.outputStream ≠ some i →
      writeTo i s w app = (app, some (.error (.stream
        (if w.InRange then .alreadyClosed else .indexOutOfBounds))))) ∧
    (∀ i, app.inputStream ≠ some i → closeInput i app = (app, some (.ok ()))) ∧
    ∀ i c, app.outputStream ≠ some i → closeOutput i c app = (app, some (.ok ())) := by
  intro app
  have h : Sound app := sound_run sdkInt native calls
  have hinput : ∀ i input, app.inputs[i]? = some input → app.inputStream ≠ some i →
      input.closed = true := by
    intro i input hi hstale
    by_contra hopen
    exact hstale (h.inputs i input hi (Bool.not_eq_true _ ▸ hopen))
  have houtput : ∀ i output, app.outputs[i]? = some output → app.outputStream ≠ some i →
      output.closed = true := by
    intro i output hi hstale
    by_contra hopen
    exact hstale (h.outputs i output hi (Bool.not_eq_true _ ▸ hopen))
  have hclosed (inRange closed : Prop) [Decidable inRange] [Decidable closed] (h : closed) :
      refusal inRange closed = if inRange then .alreadyClosed else .indexOutOfBounds := by
    rw [refusal, if_pos h]
  refine ⟨fun i s r hlt hstale => ?_, fun i s w hlt hstale => ?_, fun i hstale => ?_,
    fun i c hstale => ?_⟩
  · have hi := List.getElem?_eq_getElem hlt
    have hold := hinput i _ hi hstale
    rw [readFrom_stopped hi (.inr (.inl hold)), hclosed _ _ hold]
  · have hi := List.getElem?_eq_getElem hlt
    have hold := houtput i _ hi hstale
    rw [writeTo_stopped hi (.inr (.inl hold)), hclosed _ _ hold]
  · have hset : app.inputs.set i ⟨true⟩ = app.inputs := by
      refine List.ext_getElem? fun j => ?_
      by_cases hij : i = j
      · subst hij
        rw [List.getElem?_set_self']
        cases hi : app.inputs[i]? with
        | none => rfl
        | some input => rw [← hinput i input hi hstale]; rfl
      · rw [List.getElem?_set_ne hij]
    rw [closeInput, Throws.update, hset]
  · have hread : (Throws.read (·.outputs) : JavaCall H (List OutputStream)) app =
      (app, some (.ok app.outputs)) := rfl
    rw [closeOutput, Throws.bind_ok hread]
    cases hi : app.outputs[i]? with
    | none => rfl
    | some output =>
      show (if output.closed = true then _ else _ : JavaCall H Unit) app = _
      rw [if_pos (houtput i output hi hstale)]
      rfl

/-- The call leaves the handle as it is, or the ledger says that libcurl performs in it, on the
handle as it was. -/
def Notes (m : JavaCall H Unit) (app : Application H) : Prop :=
  (m app).1.conn.native = app.conn.native ∨
    (m app).1.conn.events = app.conn.events ++ [.perform app.conn.native]

/-- Nothing more is noted by the native call and what is thrown behind it. -/
theorem keeps_events (events : List HandleEvent) {β : Type} (m : Program Transfer (Except Thrown β)) :
    Keeps (fun app : Application H => app.conn.events = events)
      (Throws.lift (onConnection (CurlConnection.onHandle m)) >>= handOn : JavaCall H Unit) := by
  refine Throws.keeps_bind (Throws.keeps_lift (keeps_iff.mpr fun app h => h)) fun result => ?_
  cases result with
  | error e => exact Throws.keeps_throw _
  | ok _ => exact Throws.keeps_pure _

theorem notes_readFrom (i : Nat) (s : StreamCall) (r : BodyCall) (app : Application H) :
    Notes (readFrom i s r) app := by
  cases hi : app.inputs[i]? with
  | none =>
    left
    have hread : (Throws.read (·.inputs) : JavaCall H (List InputStream)) app =
      (app, some (.ok app.inputs)) := rfl
    rw [readFrom, Throws.bind_ok hread, hi]
    rfl
  | some input =>
    by_cases hstopped : ¬ r.InRange ∨ input.closed = true ∨ s.interruptedBefore = true
    · left
      rw [readFrom_stopped hi hstopped]
    · right
      have hread : (Throws.read (·.inputs) : JavaCall H (List InputStream)) app =
        (app, some (.ok app.inputs)) := rfl
      have hperforms : (Throws.update
          (performs (¬ r.InRange ∨ input.closed ∨ s.interruptedBefore)) : JavaCall H Unit) app =
            ({ app with conn := app.conn.performing }, some (.ok ())) := by
        rw [Throws.update, performs, if_neg hstopped]
      rw [readFrom, Throws.bind_ok hread, hi]
      dsimp only
      rw [Throws.bind_ok hperforms]
      exact keeps_iff.mp (keeps_events _ _) _ rfl

theorem notes_writeTo (i : Nat) (s : StreamCall) (w : BodyCall) (app : Application H) :
    Notes (writeTo i s w) app := by
  cases hi : app.outputs[i]? with
  | none =>
    left
    have hread : (Throws.read (·.outputs) : JavaCall H (List OutputStream)) app =
      (app, some (.ok app.outputs)) := rfl
    rw [writeTo, Throws.bind_ok hread, hi]
    rfl
  | some output =>
    by_cases hstopped : ¬ w.InRange ∨ output.closed = true ∨ s.interruptedBefore = true
    · left
      rw [writeTo_stopped hi hstopped]
    · right
      have hread : (Throws.read (·.outputs) : JavaCall H (List OutputStream)) app =
        (app, some (.ok app.outputs)) := rfl
      have hperforms : (Throws.update
          (performs (¬ w.InRange ∨ output.closed ∨ s.interruptedBefore)) : JavaCall H Unit) app =
            ({ app with conn := app.conn.performing }, some (.ok ())) := by
        rw [Throws.update, performs, if_neg hstopped]
      rw [writeTo, Throws.bind_ok hread, hi]
      dsimp only
      rw [Throws.bind_ok hperforms]
      exact keeps_iff.mp (keeps_events _ _) _ rfl

theorem notes_closeOutput (i : Nat) (c : Closing) (app : Application H) :
    Notes (closeOutput i c) app := by
  have hread : (Throws.read (·.outputs) : JavaCall H (List OutputStream)) app =
    (app, some (.ok app.outputs)) := rfl
  let closing : Application H := { app with outputs := app.outputs.set i ⟨true⟩ }
  cases hi : app.outputs[i]? with
  | none =>
    left
    rw [closeOutput, Throws.bind_ok hread, hi]
    rfl
  | some output =>
    by_cases hclosed : output.closed = true
    · left
      rw [closeOutput, Throws.bind_ok hread, hi]
      dsimp only
      rw [if_pos hclosed]
      rfl
    have hopen {app' : Application H} (happ : closing.performs c.interruptedBefore = app') :
        closeOutput i c app = (Throws.lift (onConnection (CurlConnection.onHandle
          (CurlConnection.closeOpen c))) >>= handOn : JavaCall H Unit) app' := by
      have hupdate : (Throws.update fun app : Application H =>
          ({ app with outputs := app.outputs.set i ⟨true⟩ }).performs c.interruptedBefore :
            JavaCall H Unit) app = (app', some (.ok ())) := by
        rw [Throws.update, ← happ]
      have hstarted : closeOpen i c app = Throws.lift (onConnection (CurlConnection.onHandle
          (CurlConnection.closeOpen c))) app' := Throws.bind_ok hupdate
      rw [closeOutput, Throws.bind_ok hread, hi]
      dsimp only
      rw [if_neg hclosed, Throws.bind_apply, hstarted, ← Throws.bind_apply]
    by_cases hstopped : c.interruptedBefore = true
    · left
      have hresult : CurlConnection.closeOpen c app.conn.native =
          (app.conn.native, some (.error (.interruptedIo 0))) := by
        rw [CurlConnection.closeOpen, Transfer.stream_eq]
        exact if_pos hstopped
      have hidle : (Throws.lift (onConnection (CurlConnection.onHandle (CurlConnection.closeOpen c))) :
          Throws ConnectionThrown (Application H) _) closing =
            (closing, some (.ok (.error (.interruptedIo 0)))) :=
        throws_lift_idle (onHandle_idle hresult)
      rw [hopen (if_pos hstopped), Throws.bind_ok hidle]
      rfl
    · right
      rw [hopen (if_neg hstopped)]
      exact keeps_iff.mp (keeps_events _ _) _ rfl

/-- **libcurl performs on the request headers that it has been given.**  At any instant of any
run, every native call of a stream in which libcurl has performed was made on a handle whose
list of request headers is the one that libcurl had been given, and no native method that
changes this list had been called since `curl.configure`; libcurl has the list as long as the
connection is connected.  No such call is missing in the ledger: a call on a stream that is not
noted leaves the handle as it is. -/
theorem given_headers (sdkInt : Nat) (native : Transfer) (calls : List ApplicationCall) :
    let app : Application H := reached sdkInt native calls
    Given app.conn.events ∧ (app.conn.connected = true → app.conn.native.Handed) ∧
      (∀ i s r, Notes (readFrom i s r) app) ∧ (∀ i s w, Notes (writeTo i s w) app) ∧
      ∀ i c, Notes (closeOutput i c) app := by
  intro app
  have h : Sound app := sound_run sdkInt native calls
  exact ⟨h.inStep.given, fun hconnected => (h.inStep.handed hconnected).native,
    fun i s r => notes_readFrom i s r app, fun i s w => notes_writeTo i s w app,
    fun i c => notes_closeOutput i c app⟩

end Calls

/-- A connection that succeeds, with a response without headers. -/
def connectOnce : Connecting where
  interruptedBefore := false
  argumentThrows := false
  configure := configureFollowing []
  interruptedAfter := false
  responseCode := 200

/-- The thread is interrupted before the stream is closed. -/
def closeInterrupted : Closing := ⟨true, ⟨⟨[], none⟩, ⟨⟨0, 0⟩, []⟩⟩, true⟩

/-- A `read` of one byte. -/
def readOne : BodyCall where
  buf := some [0]
  off := 0
  count := 1
  pause := ⟨[], none⟩
  interrupted := false
  loop := ⟨⟨0, 0⟩, []⟩
  interruptedAgain := false

/-- A stream is asked for, the connection is reset, and another stream is asked for. -/
def resetOnce : List ApplicationCall :=
  [.getInputStream connectOnce, .reset closeInterrupted, .getInputStream connectOnce]

open Application in
/-- The first stream is no longer the current one. -/
theorem stale_streams_inert_resetOnce :
    let app : Application (listMap fun a b => a == b) := reached 19 freshHandle resetOnce
    app.conn.connected = true ∧ app.inputStream = some 1 ∧
      readFrom 0 ⟨false, false, false⟩ readOne app =
        (app, some (.error (.stream .alreadyClosed))) ∧
      closeInput 0 app = (app, some (.ok ())) := by
  intro app
  have hcurrent : app.inputStream = some 1 := rfl
  have hstale : app.inputStream ≠ some 0 := by
    rw [hcurrent]
    decide
  have hinert := stale_streams_inert (H := listMap fun a b => a == b) 19 freshHandle resetOnce
  exact ⟨rfl, hcurrent, hinert.1 0 ⟨false, false, false⟩ readOne (Nat.two_pos) hstale,
    hinert.2.2.1 0 hstale⟩

/-- A header is set, and a byte of the response is read. -/
def headerOnce : List ApplicationCall :=
  [.plain (.set (.setRequestProperty ⟨true, true⟩ [97] (some [49]))) trivial,
    .getInputStream connectOnce, .readFrom 0 ⟨false, false, false⟩ readOne]

/-- libcurl has been given the header. -/
example : ∃ t, (reached 19 freshHandle headerOnce :
    Application (listMap fun a b => a == b)).conn.events = [.edit, .configure, .perform t] ∧
      t.curl.requestHeaders = [ascii "a:1"] := ⟨_, rfl, rfl⟩

end Chttpc
