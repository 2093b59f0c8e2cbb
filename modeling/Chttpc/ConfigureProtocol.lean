import Chttpc.CurlConnection

/-!
# One `configure` for each `reset`

`CurlHttp.configure` is to be called once, and again only behind `reset`.  Every accessor
that connects calls it if the flag `connected` is down, so the flag has to be up as long as
the handle is configured.

It is not if `connect` fails behind the call: when `configure` throws, or when the thread
has been interrupted meanwhile, nothing is undone and the flag stays down.  `reset()` takes
it down first of all, and if closing the output stream throws anything but an
`IOException`, it does not get to `curl.reset`.  In between the handle is configured and
the connection does not know (`unfinished`); a call that gets to `configure` then
configures the handle again.
-/

namespace Chttpc
open Program Runs

section Protocol
variable {equals : JString → JString → Bool} {H : HdrMap equals}

/-! ## Calls that connect -/

/-- What the call hands to `connect`, if it calls it. -/
def ConnectionCall.connecting (call : ConnectionCall) (conn : CurlConnection H) :
    Option Connecting :=
  match call with
  | .connect e | .getResponseCode e _ | .getContent e => some e
  | .getResponseMessage e _ =>
      -- a message that is kept is returned at once
      if conn.responseMessage.isSome ∧ conn.responseCode ≠ 100 then none else some e
  | .getContentOf assignable e => if assignable.any id then some e else none
  | .getInputStream e => if conn.settings.doInput then some e else none
  | .getOutputStream e => if conn.settings.doOutput then some e else none
  | _ => none

/-- The call gets to `curl.configure`: it connects, the connection is not connected, and
neither the interruption flag nor an argument stops it before. -/
def ConnectionCall.Reaches (call : ConnectionCall) (conn : CurlConnection H) : Prop :=
  conn.connected = false ∧
    ∃ e, call.connecting conn = some e ∧ e.interruptedBefore = false ∧ e.argumentThrows = false

/-! ## What a call leaves alone -/

/-- What the calls keep that do not change the list of request headers. -/
def Quiet (G : Transfer → Prop) : Prop := ∀ call : Call, call.edits = false → Keeps G call.run

theorem quiet_true : Quiet fun _ => True := fun _ _ => keeps_iff.mpr fun _ _ => trivial

section Quiet
variable {G : Transfer → Prop} (h : Quiet G)
include h

theorem Quiet.configure (c : Configure) (url : MutableUrl) : Keeps G (Transfer.configure c url) := by
  refine Keeps.ite (fun _ => Keeps.pure _) fun _ => ?_
  refine Keeps.bind (h (.nativeConfigure _) rfl) fun returned => ?_
  refine Keeps.bind (Keeps.read _) fun pending => ?_
  split
  · exact Keeps.pure _
  · exact Keeps.pure _
  · exact Keeps.pure _

theorem Quiet.inputRead (s : StreamCall) (r : BodyCall) : Keeps G (Transfer.inputRead s r) :=
  Keeps.ite (fun _ => Transfer.keeps_stream s (h (.read r) rfl)) fun _ => Keeps.pure _

theorem Quiet.outputWrite (s : StreamCall) (w : BodyCall) : Keeps G (Transfer.outputWrite s w) := by
  refine Keeps.ite (fun _ => ?_) fun _ => Keeps.pure _
  refine Keeps.bind (Transfer.keeps_stream s (h (.write w) rfl)) fun result => ?_
  cases result with
  | error e => exact Keeps.pure _
  | ok n => exact Keeps.pure _

theorem Quiet.closeOpen (c : Closing) : Keeps G (CurlConnection.closeOpen c) :=
  Transfer.keeps_stream _ (h (.closeOutput c.close) rfl)

end Quiet

namespace CurlConnection

/-- What the protocol depends on. -/
def link (conn : CurlConnection H) : Bool × Bool × Bool × List Invocation :=
  (conn.connected, conn.unfinished, conn.outputStream.isSome, conn.invoked)

/-- The connection is where it was, what happens to the list of request headers included. -/
structure Stays (G : Transfer → Prop) (conn conn' : CurlConnection H) : Prop where
  link : conn'.link = conn.link
  events : conn'.events = conn.events
  native : G conn.native → G conn'.native

/-- The property depends on `link`, on the ledger of the request headers and on `G` only. -/
structure Linked (G : Transfer → Prop) (I : CurlConnection H → Prop) : Prop where
  quiet : Quiet G
  stays : ∀ conn conn' : CurlConnection H, Stays G conn conn' → I conn → I conn'

theorem linked_of_link {I : CurlConnection H → Prop}
    (h : ∀ conn conn' : CurlConnection H, conn'.link = conn.link → I conn → I conn') :
    Linked (fun _ => True) I :=
  ⟨quiet_true, fun conn conn' hstays => h conn conn' hstays.link⟩

section Linked
variable {G : Transfer → Prop} {I P : CurlConnection H → Prop} {α : Type}

theorem Linked.update (h : Linked G I) {f : CurlConnection H → CurlConnection H}
    (hf : ∀ conn, Stays G conn (f conn)) : Keeps I (Throws.update f : Java H Unit) :=
  Throws.keeps_update fun conn hconn => h.stays conn _ (hf conn) hconn

theorem Linked.program (h : Linked G I) {m : Program Transfer α} (hm : Keeps G m) :
    Keeps I (CurlConnection.onHandle m : Program (CurlConnection H) α) :=
  keeps_iff.mpr fun conn hconn =>
    h.stays conn _ ⟨rfl, rfl, fun hG => keeps_iff.mp hm conn.native hG⟩ hconn

theorem Linked.onHandle (h : Linked G I) {m : Program Transfer α} (hm : Keeps G m) :
    Keeps I (Throws.lift (onHandle m) : Java H α) := Throws.keeps_lift (h.program hm)

theorem triple_callNative {method : Program Transfer Returned}
    (h : Triple P (Throws.lift (onHandle method) : Java H Returned) (fun _ => I) I) :
    Triple P (callNative method : Java H Returned) (fun _ => I) I := by
  refine Throws.triple_bind h (fun returned => ?_) fun _ _ => id
  refine Throws.keeps_bind (Throws.keeps_read _) fun pending => ?_
  cases pending with
  | none => exact Throws.keeps_pure returned
  | some e => exact Throws.keeps_throw _

theorem Linked.callNative (h : Linked G I) {method : Program Transfer Returned}
    (hm : Keeps G method) : Keeps I (callNative method : Java H Returned) :=
  triple_callNative (h.onHandle hm)

/-- What a change of the list of request headers keeps. -/
theorem triple_editHeaders (method : Program Transfer Returned)
    (h : ∀ conn, P conn →
      I { conn with native := (method conn.native).1, events := conn.events ++ [.edit] }) :
    Triple P (editHeaders method : Java H Unit) (fun _ => I) I := by
  refine Throws.triple_update_bind
    (M := fun c => ∃ conn, P conn ∧ c = { conn with events := conn.events ++ [.edit] })
    (fun conn hconn => ⟨conn, hconn, rfl⟩) ?_
  refine Throws.triple_bind (triple_callNative (Throws.triple_lift ?_))
    (fun _ => Throws.keeps_pure _) fun _ _ => id
  refine triple_iff.mpr ?_
  rintro c ⟨conn, hconn, rfl⟩
  exact h conn hconn

theorem keeps_assertConnected : Keeps I (assertConnected : Java H Unit) :=
  Throws.keeps_bind (Throws.keeps_read _) fun _ =>
    Keeps.ite (fun _ => Throws.keeps_pure _) fun _ => Throws.keeps_throw _

/-- What comes back from `assertNotConnected` is not connected. -/
theorem triple_assertNotConnected :
    Triple I (assertNotConnected : Java H Unit)
      (fun r conn => I conn ∧ (r.isOk = true → conn.connected = false)) I := by
  refine Throws.triple_read_bind fun connected => Triple.ite (fun _ => ?_) fun hconnected => ?_
  · exact Throws.triple_throw fun conn hconn => ⟨hconn.1, nofun⟩
  · refine Throws.triple_pure fun conn hconn => ⟨hconn.1, fun _ => ?_⟩
    exact hconn.2.trans (Bool.not_eq_true _ ▸ hconnected)

theorem keeps_assertNotConnected : Keeps I (assertNotConnected : Java H Unit) :=
  triple_assertNotConnected.weaken (fun _ => id) (fun _ _ h => h.1) fun _ => id

/-- A setter of the request headers is stopped if the connection is connected. -/
theorem keeps_editUnconnected (method : Program Transfer Returned)
    (h : ∀ conn, conn.connected = false → I conn →
      I { conn with native := (method conn.native).1, events := conn.events ++ [.edit] }) :
    Keeps I (do assertNotConnected; editHeaders method : Java H Unit) :=
  Throws.triple_bind triple_assertNotConnected
    (fun _ => triple_editHeaders method fun conn hconn => h conn (hconn.2 rfl) hconn.1)
    fun _ _ hconn => hconn.1

theorem Linked.fetchResponseCode (h : Linked G I) (code : Int) :
    Keeps I (fetchResponseCode code : Java H Int) := by
  refine Throws.keeps_bind (Throws.keeps_read _) fun _ => Keeps.ite (fun _ => ?_) fun _ => ?_
  · exact Throws.keeps_pure _
  · exact Throws.keeps_bind (h.callNative (h.quiet (.intHeader code 0 none 0 fun _ => 0) rfl)) fun _ =>
      Throws.keeps_bind (h.update fun _ => ⟨rfl, rfl, id⟩) fun _ => Throws.keeps_read _

theorem Linked.getHeaderFieldAt (h : Linked G I) (stringOk : Bool) (n : Int) :
    Keeps I (getHeaderFieldAt stringOk n : Java H (Option JString)) := by
  refine Throws.keeps_bind keeps_assertConnected fun _ => Keeps.ite (fun _ => ?_) fun _ => ?_
  · exact Throws.keeps_throw _
  · exact Throws.keeps_bind (h.callNative (h.quiet (.header stringOk none n fun _ => 0) rfl))
      fun _ => Throws.keeps_pure _

theorem Linked.fetchResponseMessage (h : Linked G I) (stringOk : Bool) :
    Keeps I (fetchResponseMessage stringOk : Java H (Option JString)) := by
  refine Throws.keeps_bind (h.getHeaderFieldAt stringOk 0) fun statusLine => ?_
  cases statusLine with
  | none => exact Throws.keeps_pure _
  | some statusLine =>
    dsimp only
    cases codePos statusLine with
    | none => exact Throws.keeps_pure _
    | some pos => exact Throws.keeps_bind (h.update fun _ => ⟨rfl, rfl, id⟩) fun _ => Throws.keeps_read _

theorem Linked.setUnconnected (h : Linked G I) {f : CurlConnection H → CurlConnection H}
    (hf : ∀ conn, Stays G conn (f conn)) : Keeps I (setUnconnected f : Java H Unit) :=
  Throws.keeps_bind keeps_assertNotConnected fun _ => h.update hf

theorem Linked.checkFixedLength (_ : Linked G I) (n : Int) :
    Keeps I (checkFixedLength n : Java H Unit) := by
  refine Throws.keeps_bind keeps_assertNotConnected fun _ => ?_
  refine Throws.keeps_bind (Throws.keeps_read _) fun settings => ?_
  exact Keeps.ite (fun _ => Throws.keeps_throw _) fun _ =>
    Keeps.ite (fun _ => Throws.keeps_throw _) fun _ => Throws.keeps_pure _

theorem Linked.onUrl (h : Linked G I) (method : MutableUrl → MutableUrl × Option UrlException) :
    Keeps I (onUrl method : Java H Unit) := by
  refine Throws.keeps_bind (Throws.keeps_read _) fun url => ?_
  refine Throws.keeps_bind (h.update fun _ => ⟨rfl, rfl, id⟩) fun _ => ?_
  cases (method url).2 with
  | none => exact Throws.keeps_pure _
  | some e => exact Throws.keeps_throw _

/-- A setter is no part of the protocol, but for a change of the request headers. -/
theorem Linked.setter (h : Linked G I) (setter : Setter)
    (hedit : ∀ conn (call : Call), call.edits = true → conn.connected = false → I conn →
      I { conn with native := (call.run conn.native).1, events := conn.events ++ [.edit] }) :
    Keeps I (setter.run : Java H Unit) := by
  cases setter with
  | setUrlString urlString =>
    exact Throws.keeps_bind keeps_assertNotConnected fun _ => h.onUrl _
  | setProxy => exact keeps_assertNotConnected
  | setRequestMethod =>
    exact Throws.keeps_bind (Throws.keeps_read _) fun _ =>
      Keeps.ite (fun _ => Throws.keeps_throw _) fun _ => Throws.keeps_pure _
  | setDoInput doInput => exact h.setUnconnected fun _ => ⟨rfl, rfl, id⟩
  | setDoOutput doOutput => exact h.setUnconnected fun _ => ⟨rfl, rfl, id⟩
  | setInstanceFollowRedirects follow => exact h.update fun _ => ⟨rfl, rfl, id⟩
  | setFixedLengthStreamingMode n =>
    exact Throws.keeps_bind (h.checkFixedLength n) fun _ => h.update fun _ => ⟨rfl, rfl, id⟩
  | setFixedLengthStreamingModeLong n =>
    exact Throws.keeps_bind (h.checkFixedLength n) fun _ => h.update fun _ => ⟨rfl, rfl, id⟩
  | setChunkedStreamingMode n =>
    refine Throws.keeps_bind keeps_assertNotConnected fun _ => ?_
    refine Throws.keeps_bind (Throws.keeps_read _) fun settings => ?_
    exact Keeps.ite (fun _ => Throws.keeps_throw _) fun _ => h.update fun _ => ⟨rfl, rfl, id⟩
  | setReadTimeout timeout =>
    exact Keeps.ite (fun _ => Throws.keeps_throw _) fun _ => h.update fun _ => ⟨rfl, rfl, id⟩
  | setConnectTimeout timeout =>
    exact Keeps.ite (fun _ => Throws.keeps_throw _) fun _ => h.update fun _ => ⟨rfl, rfl, id⟩
  | setRequestProperty alloc key value =>
    exact keeps_editUnconnected _ fun conn => hedit conn (.setHeader alloc key value) rfl
  | addRequestProperty alloc key value =>
    exact keeps_editUnconnected _ fun conn => hedit conn (.addHeader alloc key value) rfl

/-- Reading from the input stream is no part of the protocol. -/
theorem Linked.readInput (h : Linked G I) (s : StreamCall) (r : BodyCall) :
    Keeps I (readInput s r : Java H Unit) := by
  refine Throws.keeps_bind (Throws.keeps_read _) fun inputStream => ?_
  cases inputStream with
  | none => exact Throws.keeps_pure _
  | some input =>
    refine Throws.keeps_bind (h.onHandle (h.quiet.inputRead _ r)) fun result => ?_
    cases result with
    | error e => exact Throws.keeps_throw _
    | ok n => exact Throws.keeps_pure _

theorem Linked.writeOutput (h : Linked G I) (s : StreamCall) (w : BodyCall) :
    Keeps I (writeOutput s w : Java H Unit) := by
  refine Throws.keeps_bind (Throws.keeps_read _) fun outputStream => ?_
  cases outputStream with
  | none => exact Throws.keeps_pure _
  | some output =>
    refine Throws.keeps_bind (h.onHandle (h.quiet.outputWrite _ w)) fun result => ?_
    cases result with
    | error e => exact Throws.keeps_throw _
    | ok n => exact Throws.keeps_pure _

/-- A stream that is closed is still there. -/
theorem Linked.closeOutput (h : Linked G I) (c : Closing) :
    Keeps I (closeOutput c : Java H Unit) := by
  refine Triple.weaken (Q := fun _ => I) (I := I) ?_ (fun _ => id) (fun _ _ => id) fun _ => id
  refine Throws.triple_bind
    (Q := fun r conn => I conn ∧ ∀ output, r = .ok output → conn.outputStream = output)
    (Throws.triple_read fun conn hconn => ⟨hconn, fun _ he => by cases he; rfl⟩)
    (fun outputStream => ?_) fun _ _ hconn => hconn.1
  cases outputStream with
  | none => exact Throws.triple_pure fun _ hconn => hconn.1
  | some output =>
    refine Triple.ite (fun _ => Throws.triple_pure fun _ hconn => hconn.1) fun _ => ?_
    refine Throws.triple_bind (Q := fun _ => I) (Throws.triple_update fun conn hconn => ?_)
      (fun _ => ?_) fun _ _ => id
    · have hsome : conn.outputStream = some output := hconn.2 _ rfl
      exact h.stays conn _ ⟨by rw [link, link, hsome]; rfl, rfl, id⟩ hconn.1
    · refine Throws.keeps_bind (h.onHandle (h.quiet.closeOpen c)) fun result => ?_
      cases result with
      | error e => exact Throws.keeps_throw _
      | ok n => exact Throws.keeps_pure _

theorem Linked.getErrorStream (h : Linked G I) :
    Keeps I (getErrorStream : Java H (Option InputStream)) := by
  refine Throws.keeps_bind (Throws.keeps_read _) fun _ => ?_
  refine Throws.keeps_bind (Throws.keeps_read _) fun _ => ?_
  refine Keeps.ite (fun _ => Throws.keeps_pure _) fun _ => ?_
  exact Throws.keeps_bind (h.update fun _ => ⟨rfl, rfl, id⟩) fun _ => Throws.keeps_read _

theorem Linked.getHeaderFieldKey (h : Linked G I) (stringOk : Bool) (n : Int) :
    Keeps I (getHeaderFieldKey stringOk n : Java H (Option JString)) := by
  refine Throws.keeps_bind keeps_assertConnected fun _ => ?_
  refine Keeps.ite (fun _ => Throws.keeps_throw _) fun _ => ?_
  refine Keeps.ite (fun _ => Throws.keeps_pure _) fun _ => ?_
  exact Throws.keeps_bind (h.callNative (h.quiet (.header stringOk none (-n) fun _ => 0) rfl))
    fun _ => Throws.keeps_pure _

theorem Linked.getHeaderFields (h : Linked G I) (alloc : ArrayAlloc) :
    Keeps I (getHeaderFields alloc : Java H (HeaderFields H)) := by
  refine Throws.keeps_bind keeps_assertConnected fun _ => ?_
  refine Throws.keeps_bind (Throws.keeps_read _) fun headerMap => ?_
  cases headerMap with
  | some m => exact Throws.keeps_pure _
  | none =>
    refine Throws.keeps_bind (h.callNative (h.quiet (.getHeaders true alloc) rfl)) fun returned => ?_
    cases Chttpc.getHeaderFields H none (Returned.elements returned) with
    | none => exact Throws.keeps_throw _
    | some fields =>
      exact Throws.keeps_bind (h.update fun _ => ⟨rfl, rfl, id⟩) fun _ => Throws.keeps_pure _

end Linked
end CurlConnection

theorem discard_fst {α : Type} (method : Java H α) (conn : CurlConnection H) :
    (discard method conn).1 = (method conn).1 := rfl

/-- The calls that have nothing to do with connecting and resetting. -/
def ConnectionCall.Aside : ConnectionCall → Prop
  | .connect _ | .getResponseCode .. | .getResponseMessage .. | .getContent _
  | .getContentOf .. | .getInputStream _ | .getOutputStream _ | .reset _ | .disconnect _ => False
  | _ => True

open CurlConnection in
/-- They keep what depends on `link` only, and on the request headers if a change of these
keeps it. -/
theorem CurlConnection.Linked.aside {G : Transfer → Prop} {I : CurlConnection H → Prop}
    (h : Linked G I) (hedit : ∀ conn (call : Call), call.edits = true → conn.connected = false →
      I conn → I { conn with native := (call.run conn.native).1, events := conn.events ++ [.edit] })
    {call : ConnectionCall} (haside : call.Aside) {conn : CurlConnection H} (hconn : I conn) :
    I (call.run conn).1 := by
  have hkeeps : ∀ {α : Type} {method : Java H α}, Keeps I method → I (discard method conn).1 :=
    fun hm => keeps_iff.mp hm conn hconn
  cases call with
  | connect e => exact haside.elim
  | getResponseCode e code => exact haside.elim
  | getResponseMessage e stringOk => exact haside.elim
  | getContent e => exact haside.elim
  | getContentOf assignable e => exact haside.elim
  | getInputStream e => exact haside.elim
  | getOutputStream e => exact haside.elim
  | reset c => exact haside.elim
  | disconnect c => exact haside.elim
  | getErrorStream => exact hkeeps h.getErrorStream
  | getHeaderFieldAt stringOk n => exact hkeeps (h.getHeaderFieldAt stringOk n)
  | getHeaderFieldKey stringOk n => exact hkeeps (h.getHeaderFieldKey stringOk n)
  | getHeaderField stringOk name beyond =>
    exact hkeeps (Throws.keeps_bind keeps_assertConnected fun _ =>
      Throws.keeps_bind
        (h.callNative (h.quiet (.header stringOk (some name) name.length beyond) rfl)) fun _ =>
          Throws.keeps_pure _)
  | getHeaderFieldLong name default beyond =>
    exact hkeeps (Throws.keeps_bind keeps_assertConnected fun _ =>
      Throws.keeps_bind (h.callNative
        (h.quiet (.intHeader 0 default (some name) name.length beyond) rfl))
        fun _ => Throws.keeps_pure _)
  | getHeaderFields alloc => exact hkeeps (h.getHeaderFields alloc)
  | getRequestProperty alloc stringOk key =>
    exact hkeeps (Throws.keeps_bind keeps_assertNotConnected fun _ =>
      Throws.keeps_bind (h.callNative (h.quiet (.outHeader alloc stringOk key) rfl))
        fun _ => Throws.keeps_pure _)
  | set setter => exact hkeeps (h.setter setter hedit)
  | readInput s r => exact hkeeps (h.readInput s r)
  | writeOutput s w => exact hkeeps (h.writeOutput s w)
  | closeInput => exact hkeeps (h.update fun _ => ⟨rfl, rfl, id⟩)
  | closeOutput c => exact hkeeps (h.closeOutput c)

/-! ## Calling `curl.configure` -/

namespace CurlConnection

/-- The ledger begins like this. -/
def Begins (base : List Invocation) (conn : CurlConnection H) : Prop := base <+: conn.invoked

theorem linked_begins (base : List Invocation) :
    Linked (fun _ => True) (Begins base : CurlConnection H → Prop) := by
  refine linked_of_link fun conn conn' hlink h => ?_
  have hinvoked : conn'.invoked = conn.invoked := congrArg (·.2.2.2) hlink
  rw [Begins, hinvoked]
  exact h

/-- What is behind the call of `curl.configure` keeps the invariant. -/
theorem Linked.configureHandle {G : Transfer → Prop} {I : CurlConnection H → Prop}
    (hlinked : Linked G I) (c : Configure) {P : CurlConnection H → Prop}
    (h : ∀ conn, P conn → I conn.configuring) :
    Triple P (configureHandle c : Java H Unit) (fun _ => I) I := by
  refine Throws.triple_bind (Q := fun _ => I) (Throws.triple_update h) (fun _ => ?_) fun _ _ => id
  refine Throws.keeps_bind (Throws.keeps_read _) fun url => ?_
  refine Throws.keeps_bind (hlinked.onHandle (hlinked.quiet.configure c url)) fun result => ?_
  cases result with
  | error e => exact Throws.keeps_throw _
  | ok url => exact hlinked.update fun _ => ⟨rfl, rfl, id⟩

/-- An argument that throws leaves the connection as it is. -/
theorem Linked.configure {G : Transfer → Prop} {I : CurlConnection H → Prop}
    (hlinked : Linked G I) {e : Connecting} {P : CurlConnection H → Prop}
    (h : e.argumentThrows = false → ∀ conn, P conn → I conn.configuring) :
    Triple P (CurlConnection.configure e : Java H Unit)
      (fun r conn => (P conn ∧ e.argumentThrows = true ∧ r.isOk = false) ∨ I conn) I := by
  refine Throws.triple_read_bind fun sdkInt => Throws.triple_read_bind fun settings => ?_
  refine Triple.ite (fun hthrows => ?_) fun hthrows => ?_
  · exact Throws.triple_throw fun conn hconn => .inl ⟨hconn.1.1, hthrows, rfl⟩
  · refine (hlinked.configureHandle _ fun conn hconn => ?_).weaken (fun _ => id)
      (fun _ _ => .inr) fun _ => id
    exact h (Bool.not_eq_true _ ▸ hthrows) conn hconn.1.1

end CurlConnection

/-! ## The invariant -/

/-- **The invariant of the protocol**: the handle is configured as long as the connection
is connected or something is unfinished. -/
structure ConfiguredOnce (conn : CurlConnection H) : Prop where
  apart : Apart .configure .reset conn.invoked
  since : Since .configure .reset conn.invoked ↔
    conn.connected = true ∨ conn.unfinished = true
  output : conn.outputStream ≠ none → conn.connected = true

namespace ConfiguredOnce
open CurlConnection

theorem new (sdkInt : Nat) (native : Transfer) :
    ConfiguredOnce (CurlConnection.new sdkInt native : CurlConnection H) where
  apart := apart_nil _ _
  since := iff_of_false (not_since_nil _ _) (by simp [CurlConnection.new])
  output := fun h => absurd rfl h

theorem of_link {conn conn' : CurlConnection H} (hlink : conn'.link = conn.link)
    (h : ConfiguredOnce conn) : ConfiguredOnce conn' := by
  simp only [link, Prod.mk.injEq] at hlink
  obtain ⟨hconnected, hunfinished, houtput, hinvoked⟩ := hlink
  refine ⟨hinvoked ▸ h.apart, by rw [hinvoked, hconnected, hunfinished]; exact h.since, fun hne => ?_⟩
  rw [hconnected]
  refine h.output fun hnone => hne ?_
  rw [hnone] at houtput
  exact Option.isSome_eq_false_iff.mp houtput |> Option.isNone_iff_eq_none.mp

theorem linked : Linked (fun _ => True) (ConfiguredOnce : CurlConnection H → Prop) :=
  linked_of_link fun _ _ => of_link

/-- The invariant, of a connection that is connected. -/
theorem linked_connected : Linked (fun _ => True)
    (fun conn : CurlConnection H => ConfiguredOnce conn ∧ conn.connected = true) :=
  linked_of_link fun _ _ hlink h => ⟨of_link hlink h.1, (congrArg Prod.fst hlink).trans h.2⟩

theorem linked_unfinished : Linked (fun _ => True)
    (fun conn : CurlConnection H => ConfiguredOnce conn ∧ conn.unfinished = true) :=
  linked_of_link fun _ _ hlink h => ⟨of_link hlink h.1, (congrArg (·.2.1) hlink).trans h.2⟩

/-- `curl.configure` is called on a handle that is not configured. -/
theorem invoke_configure {conn : CurlConnection H} (h : ConfiguredOnce conn)
    (hconnected : conn.connected = false) (hunfinished : conn.unfinished = false) :
    ConfiguredOnce conn.configuring where
  apart := by
    refine apart_concat_self.mpr ⟨h.apart, fun hsince => ?_⟩
    have hstate := h.since.mp hsince
    rw [hconnected, hunfinished] at hstate
    simp at hstate
  since := iff_of_true (since_concat_self _ _ _) (.inr rfl)
  output := h.output

/-- **`establish` keeps the invariant**, if the handle is not configured or the call is
stopped before it gets to `configure`. -/
theorem establish {e : Connecting} :
    Triple (fun conn : CurlConnection H => ConfiguredOnce conn ∧ conn.connected = false ∧
        ¬ (conn.unfinished = true ∧ e.interruptedBefore = false ∧ e.argumentThrows = false))
      (CurlConnection.establish e : Java H Unit)
      (fun r conn => ConfiguredOnce conn ∧ (r.isOk = true → conn.connected = true))
      ConfiguredOnce := by
  refine Triple.ite (fun _ => Throws.triple_throw fun conn hconn => ⟨hconn.1, nofun⟩) fun hbefore => ?_
  -- the handle is configured, and the connection is not connected yet
  have hconfigure : Triple (fun conn : CurlConnection H => ConfiguredOnce conn ∧
      conn.connected = false ∧ ¬ (conn.unfinished = true ∧ e.interruptedBefore = false ∧
        e.argumentThrows = false)) (CurlConnection.configure e : Java H Unit)
      (fun r conn => ConfiguredOnce conn ∧ (r.isOk = true → conn.unfinished = true))
      ConfiguredOnce := by
    refine (linked_unfinished.configure fun hargument conn hconn => ?_).weaken (fun _ => id) ?_
      fun conn hconn => hconn.1
    · refine ⟨invoke_configure hconn.1 hconn.2.1 ?_, rfl⟩
      by_contra hunfinished
      exact hconn.2.2 ⟨Bool.not_eq_false _ ▸ hunfinished, Bool.not_eq_true _ ▸ hbefore, hargument⟩
    · rintro r conn (⟨hconn, -, hne⟩ | ⟨hconn, hunfinished⟩)
      · exact ⟨hconn.1, fun hr => Bool.noConfusion (hne.symm.trans hr)⟩
      · exact ⟨hconn, fun _ => hunfinished⟩
  refine Throws.triple_bind hconfigure (fun _ => ?_) fun _ _ hconn => ⟨hconn.1, nofun⟩
  refine Triple.ite (fun _ => Throws.triple_throw fun conn hconn => ⟨hconn.1, nofun⟩) fun _ => ?_
  refine Throws.triple_update_bind
    (M := fun conn => ConfiguredOnce conn ∧ conn.connected = true) (fun conn hconn => ?_) ?_
  · have hsince := hconn.1.since.mpr (.inr (hconn.2 rfl))
    exact ⟨⟨hconn.1.apart, iff_of_true hsince (.inl rfl), fun _ => rfl⟩, rfl⟩
  · have hfetch := linked_connected (H := H).fetchResponseCode e.responseCode
    refine Throws.triple_bind (hfetch.weaken (fun _ => id) (fun _ _ => id) fun _ hconn => hconn.1)
      (fun _ => ?_) fun _ conn hconn => ⟨hconn.1, nofun⟩
    exact Throws.triple_pure fun conn hconn => ⟨hconn.1, fun _ => hconn.2⟩

/-- `connect`, too, and a connection that it returns from is connected. -/
theorem connect {e : Connecting} :
    Triple (fun conn : CurlConnection H => ConfiguredOnce conn ∧
        ¬ (conn.unfinished = true ∧ conn.connected = false ∧ e.interruptedBefore = false ∧
          e.argumentThrows = false))
      (CurlConnection.connect e : Java H Unit)
      (fun r conn => ConfiguredOnce conn ∧ (r.isOk = true → conn.connected = true))
      ConfiguredOnce := by
  refine Throws.triple_read_bind fun connected => Triple.ite (fun hconnected => ?_) fun hconnected => ?_
  · exact Throws.triple_pure fun conn hconn => ⟨hconn.1.1, fun _ => hconn.2.trans hconnected⟩
  · refine establish.weaken (fun conn hconn => ?_) (fun _ _ => id) fun _ => id
    have hfalse : conn.connected = false := hconn.2.trans (Bool.not_eq_true _ ▸ hconnected)
    exact ⟨hconn.1.1, hfalse, fun h => hconn.1.2 ⟨h.1, hfalse, h.2⟩⟩

end ConfiguredOnce

/-! ## One call -/

section Calls
open CurlConnection
variable {I J : CurlConnection H → Prop} {e : Connecting} {conn : CurlConnection H}
  {call : ConnectionCall} {α β : Type}

/-- From `conn` the program keeps `I` at every instant, and when it returns normally it has
established `J`. -/
def Establishes (I J : CurlConnection H → Prop) (conn : CurlConnection H) (m : Java H α) : Prop :=
  Triple (· = conn) m (fun r c => I c ∧ (r.isOk = true → J c)) I

theorem Establishes.bind {m : Java H α} {rest : α → Java H β} (hJI : ∀ c, J c → I c)
    (h : Establishes I J conn m) (hrest : ∀ a, Keeps J (rest a)) :
    Establishes I J conn (m >>= rest) := by
  refine Throws.triple_bind h (fun a => ?_) fun _ _ hc => ⟨hc.1, nofun⟩
  exact Triple.weaken (hrest a) (fun c hc => hc.2 rfl) (fun _ c hc => ⟨hJI c hc, fun _ => hc⟩) hJI

theorem Establishes.keeps {m : Java H α} (h : Establishes I J conn m) : I (m conn).1 := by
  have hm := h conn rfl
  split at hm
  · rename_i hrun
    rw [hrun]
    exact hm.1
  · rename_i hrun
    rw [hrun]
    exact hm

/-- A program behind a check of the settings that the connection passes. -/
theorem Establishes.of_check {refuses : Settings → Prop} [DecidablePred refuses]
    {refusal : Settings → Java H α} {m : Java H α} (hpasses : ¬ refuses conn.settings)
    (h : Establishes I J conn m) :
    Establishes I J conn (Throws.read (·.settings) >>= fun settings =>
      if refuses settings then refusal settings else m) := by
  refine Throws.triple_read_bind fun settings => Triple.ite (fun hrefused => ?_) fun _ => ?_
  · rintro c ⟨rfl, rfl⟩
    exact absurd hrefused hpasses
  · exact h.weaken (fun _ hc => hc.1) (fun _ _ => id) fun _ => id

/-- **A call that connects** keeps what `connect` keeps, if the rest of it depends on `link`
only. -/
theorem run_of_connecting {G : Transfer → Prop} (hJI : ∀ c, J c → I c) (hlinked : Linked G J)
    (houtput : ∀ c output, J c → J { c with outputStream := some output })
    (hcall : call.connecting conn = some e) (h : Establishes I J conn (connect e)) :
    I (call.run conn).1 := by
  have hcreate : Establishes I J conn (createInputStream e) :=
    h.bind hJI fun _ => hlinked.update fun _ => ⟨rfl, rfl, id⟩
  have hcontent : Establishes I J conn (getContent e) :=
    hcreate.bind hJI fun _ => Throws.keeps_read _
  cases call with
  | connect e' =>
    cases hcall
    exact h.keeps
  | getResponseCode e' code =>
    cases hcall
    exact (h.bind hJI fun _ => hlinked.fetchResponseCode code).keeps
  | getContent e' =>
    cases hcall
    exact hcontent.keeps
  | getResponseMessage e' stringOk =>
    simp only [ConnectionCall.connecting] at hcall
    split at hcall
    · cases hcall
    · rename_i hmessage
      cases hcall
      refine Establishes.keeps (J := J) ?_
      refine Throws.triple_read_bind fun message => Throws.triple_read_bind fun code => ?_
      refine Triple.ite (fun hmessage' => ?_) fun _ => ?_
      · rintro c ⟨⟨rfl, rfl⟩, rfl⟩
        exact absurd hmessage' hmessage
      · exact (h.bind hJI fun _ => hlinked.fetchResponseMessage stringOk).weaken
          (fun _ hc => hc.1.1) (fun _ _ => id) fun _ => id
  | getContentOf assignable e' =>
    simp only [ConnectionCall.connecting] at hcall
    split at hcall
    · rename_i hany
      cases hcall
      refine Establishes.keeps (J := J) (m := getContentOf assignable e) ?_
      rw [getContentOf, if_pos hany]
      exact hcontent
    · cases hcall
  | getInputStream e' =>
    simp only [ConnectionCall.connecting] at hcall
    split at hcall
    · rename_i hdoInput
      cases hcall
      have hpasses : ¬ conn.settings.doInput = false := by simp [hdoInput]
      refine (Establishes.of_check (J := J) hpasses (hcreate.bind hJI fun _ => ?_)).keeps
      refine Throws.keeps_bind (Throws.keeps_read _) fun responseCode => ?_
      refine Keeps.ite (fun _ => ?_) fun _ => Throws.keeps_read _
      exact Throws.keeps_bind (Throws.keeps_read _) fun _ => Throws.keeps_throw _
    · cases hcall
  | getOutputStream e' =>
    simp only [ConnectionCall.connecting] at hcall
    split at hcall
    · rename_i hdoOutput
      cases hcall
      have hpasses : ¬ conn.settings.doOutput = false := by simp [hdoOutput]
      refine (Establishes.of_check (J := J) hpasses (h.bind hJI fun _ => ?_)).keeps
      exact Throws.keeps_bind (Throws.keeps_update fun c hc => houtput c _ hc) fun _ =>
        Throws.keeps_read _
    · cases hcall
  | _ => cases hcall

/-- A call that could connect and does not leaves the connection as it is. -/
theorem run_of_not_connecting (hcall : call.connecting conn = none) (haside : ¬ call.Aside)
    (hreset : ∀ c, call ≠ .reset c ∧ call ≠ .disconnect c) : (call.run conn).1 = conn := by
  cases call with
  | connect e | getResponseCode e code | getContent e => cases hcall
  | reset c => exact absurd rfl (hreset c).1
  | disconnect c => exact absurd rfl (hreset c).2
  | getResponseMessage e stringOk =>
    simp only [ConnectionCall.connecting] at hcall
    split at hcall
    · rename_i hmessage
      have hkept : getResponseMessage e stringOk conn = (conn, some (.ok conn.responseMessage)) := by
        show (if conn.responseMessage.isSome = true ∧ conn.responseCode ≠ 100 then _ else _ :
          Java H (Option JString)) conn = _
        rw [if_pos hmessage]
        rfl
      rw [ConnectionCall.run, discard_fst, hkept]
    · cases hcall
  | getContentOf assignable e =>
    simp only [ConnectionCall.connecting] at hcall
    split at hcall
    · cases hcall
    · rename_i hany
      rw [ConnectionCall.run, discard_fst, getContentOf, if_neg hany]
      rfl
  | getInputStream e =>
    simp only [ConnectionCall.connecting] at hcall
    split at hcall
    · cases hcall
    · rename_i hdoInput
      rw [ConnectionCall.run, discard_fst]
      show ((if conn.settings.doInput = false then _ else _ : Java H (Option InputStream)) conn).1 = _
      rw [if_pos (Bool.not_eq_true _ ▸ hdoInput)]
      rfl
  | getOutputStream e =>
    simp only [ConnectionCall.connecting] at hcall
    split at hcall
    · cases hcall
    · rename_i hdoOutput
      rw [ConnectionCall.run, discard_fst]
      show ((if conn.settings.doOutput = false then _ else _ : Java H (Option OutputStream)) conn).1 = _
      rw [if_pos (Bool.not_eq_true _ ▸ hdoOutput)]
      rfl
  | _ => exact absurd trivial haside

/-- `curl.reset` is called on a handle of a connection that is not connected. -/
theorem ConfiguredOnce.resetHandle :
    Triple (fun conn : CurlConnection H => Apart .configure .reset conn.invoked ∧
        conn.connected = false ∧ conn.outputStream = none)
      (CurlConnection.resetHandle : Java H Unit) (fun _ => ConfiguredOnce) ConfiguredOnce := by
  refine Throws.triple_update_bind (M := ConfiguredOnce) (fun conn hconn => ?_)
    (Throws.keeps_bind (linked.callNative (quiet_true .reset rfl)) fun _ => Throws.keeps_pure _)
  refine ⟨apart_concat (by decide) hconn.1, ?_, fun hne => absurd hconn.2.2 hne⟩
  exact iff_of_false (not_since_concat (by decide) _) (by simp [hconn.2.1])

theorem CurlConnection.Linked.closeQuietly {G : Transfer → Prop} (hlinked : Linked G I) (c : Closing)
    (output : OutputStream) : Keeps I (closeQuietly c output : Java H Unit) := by
  refine Keeps.ite (fun _ => Throws.keeps_pure _) fun _ => ?_
  refine Throws.keeps_bind (hlinked.onHandle (hlinked.quiet.closeOpen c)) fun result => ?_
  cases uncaught result with
  | none => exact Throws.keeps_pure _
  | some e => exact Throws.keeps_throw _

/-- A connection that `reset()` has taken down. -/
structure TakenDown (output : Option OutputStream) (conn : CurlConnection H) : Prop where
  apart : Apart .configure .reset conn.invoked
  connected : conn.connected = false
  unfinished : conn.unfinished = true
  since : output ≠ none → Since .configure .reset conn.invoked

/-- The handle is still configured when the output stream is closed. -/
theorem TakenDown.configuredOnce {output : OutputStream} (h : TakenDown (some output) conn)
    (hnone : conn.outputStream = none) : ConfiguredOnce conn where
  apart := h.apart
  since := iff_of_true (h.since nofun) (.inr h.unfinished)
  output := fun hne => absurd hnone hne

/-- **`reset()` keeps the invariant**, also if closing the output stream throws. -/
theorem ConfiguredOnce.reset (c : Closing) :
    Keeps ConfiguredOnce (CurlConnection.reset c : Java H Unit) := by
  refine Throws.triple_update_bind (M := fun conn => TakenDown conn.outputStream conn)
    (fun conn hconn => ?_) ?_
  · refine ⟨hconn.apart, rfl, rfl, fun hne => ?_⟩
    exact hconn.since.mpr (.inl (hconn.output hne))
  refine Throws.triple_update_bind (M := fun conn => TakenDown conn.outputStream conn)
    (fun conn hconn => ⟨hconn.apart, hconn.connected, hconn.unfinished, hconn.since⟩) ?_
  refine Throws.triple_read_bind fun output => ?_
  refine Throws.triple_update_bind
    (M := fun conn => TakenDown output conn ∧ conn.outputStream = none) ?_ ?_
  · rintro conn ⟨hconn, rfl⟩
    exact ⟨⟨hconn.apart, hconn.connected, hconn.unfinished, hconn.since⟩, rfl⟩
  cases output with
  | none =>
    exact ConfiguredOnce.resetHandle.weaken
      (fun conn hconn => ⟨hconn.1.apart, hconn.1.connected, hconn.2⟩) (fun _ _ => id) fun _ => id
  | some output =>
    have hlinked : Linked (fun _ => True) (fun conn : CurlConnection H =>
        ConfiguredOnce conn ∧ conn.connected = false ∧ conn.outputStream = none) := by
      refine linked_of_link fun conn conn' hlink hconn => ?_
      have houtput : conn'.outputStream.isSome = conn.outputStream.isSome := congrArg (·.2.2.1) hlink
      refine ⟨ConfiguredOnce.of_link hlink hconn.1, (congrArg Prod.fst hlink).trans hconn.2.1, ?_⟩
      rw [hconn.2.2] at houtput
      exact Option.isNone_iff_eq_none.mp (Option.isSome_eq_false_iff.mp houtput)
    refine Throws.triple_bind ((hlinked.closeQuietly c output).weaken
      (fun conn hconn => ⟨hconn.1.configuredOnce hconn.2, hconn.1.connected, hconn.2⟩)
      (fun _ _ => id) fun _ hconn => hconn.1) (fun _ => ?_) fun _ _ hconn => hconn.1
    exact ConfiguredOnce.resetHandle.weaken (fun conn hconn => ⟨hconn.1.apart, hconn.2⟩)
      (fun _ _ => id) fun _ => id

/-- **A call keeps the invariant**, unless it gets to `configure` while something is
unfinished. -/
theorem ConfiguredOnce.run (h : ConfiguredOnce conn)
    (hcall : ¬ (conn.unfinished = true ∧ call.Reaches conn)) : ConfiguredOnce (call.run conn).1 := by
  by_cases haside : call.Aside
  · exact linked.aside (fun _ _ _ _ => of_link rfl) haside h
  by_cases hreset : ∀ c, call ≠ .reset c ∧ call ≠ .disconnect c
  · cases hconnecting : call.connecting conn with
    | none =>
      rw [run_of_not_connecting hconnecting haside hreset]
      exact h
    | some e =>
      refine run_of_connecting (J := fun c => ConfiguredOnce c ∧ c.connected = true)
        (fun _ hc => hc.1) linked_connected
        (fun c output hc => ⟨⟨hc.1.apart, hc.1.since, fun _ => hc.2⟩, hc.2⟩) hconnecting ?_
      refine Triple.weaken (connect (e := e)) (fun c hc => ?_)
        (fun r c hc => ⟨hc.1, fun hr => ⟨hc.1, hc.2 hr⟩⟩) fun _ => id
      rw [hc]
      exact ⟨h, fun hreach => hcall ⟨hreach.1, hreach.2.1, e, hconnecting, hreach.2.2⟩⟩
  · obtain ⟨c, hc⟩ := not_forall.mp hreset
    rcases not_and_or.mp hc with hc | hc
    · rw [not_not.mp hc]
      exact keeps_iff.mp (ConfiguredOnce.reset c) conn h
    · rw [not_not.mp hc]
      have hdisconnect : Keeps ConfiguredOnce (disconnect c : Java H Unit) :=
        Throws.keeps_bind (ConfiguredOnce.reset c) fun _ =>
          triple_editHeaders _ fun _ => of_link rfl
      exact keeps_iff.mp hdisconnect conn h

/-- A call that gets to `configure` calls it. -/
theorem begins_run (hcall : call.Reaches conn) :
    conn.invoked ++ [.configure] <+: (call.run conn).1.invoked := by
  obtain ⟨hconnected, e, hconnecting, hbefore, hargument⟩ := hcall
  have hlinked := linked_begins (H := H) (conn.invoked ++ [.configure])
  refine run_of_connecting (I := Begins _) (fun _ => id) hlinked
    (fun _ _ => id) hconnecting ?_
  refine Throws.triple_read_bind fun connected => Triple.ite (fun htrue => ?_) fun _ => ?_
  · rintro c ⟨rfl, rfl⟩
    rw [hconnected] at htrue
    cases htrue
  refine Triple.ite (fun htrue => ?_) fun _ => ?_
  · rw [hbefore] at htrue
    cases htrue
  refine Throws.triple_bind (Q := fun _ => Begins _) ?_ (fun _ => ?_)
    fun _ _ hc => ⟨hc, nofun⟩
  · refine (hlinked.configure fun _ c hc => ?_).weaken (fun _ => id) ?_ fun _ => id
    · rw [hc.1]
      exact List.prefix_refl _
    · rintro r c (⟨-, htrue, -⟩ | hc)
      · rw [hargument] at htrue
        cases htrue
      · exact hc
  refine Triple.ite (fun _ => Throws.triple_throw fun c hc => ⟨hc, nofun⟩) fun _ => ?_
  refine Throws.triple_update_bind (M := Begins _) (fun _ => id) ?_
  refine Throws.triple_bind (hlinked.fetchResponseCode e.responseCode) (fun _ => ?_)
    fun _ _ hc => ⟨hc, nofun⟩
  exact Throws.triple_pure fun c hc => ⟨hc, fun _ => hc⟩

end Calls

/-- **The configure protocol.**  In any run of calls on a new connection, there is at every
instant a call of `curl.reset` between any two calls of `curl.configure`, exactly when no
call gets to `curl.configure` while an attempt to connect that has called it, or a reset
that has not got to `curl.reset`, is left unfinished. -/
theorem configured_once_iff (sdkInt : Nat) (native : Transfer) (calls : List ConnectionCall) :
    (∀ before, before <+: calls → Apart .configure .reset
      (runConnection before (CurlConnection.new sdkInt native : CurlConnection H)).1.invoked) ↔
      ∀ before call, before ++ [call] <+: calls → ∀ conn,
        runConnection before (CurlConnection.new sdkInt native : CurlConnection H) =
          (conn, some ()) → ¬ (conn.unfinished = true ∧ call.Reaches conn) := by
  refine forEach_always_iff (I := ConfiguredOnce) (fun conn h => h.apart)
    (fun conn call h => h.run) (fun conn call h hcall hapart => ?_) calls _
    (ConfiguredOnce.new sdkInt native)
  have hcall' := not_not.mp hcall
  have hconcat := apart_concat_self.mp (hapart.of_prefix (begins_run hcall'.2))
  exact hconcat.2 (h.since.mpr (.inr hcall'.1))

end Protocol

/-- An attempt to connect in which libcurl reports an error. -/
def connectFailing : Connecting where
  interruptedBefore := false
  argumentThrows := false
  configure := { configureFollowing [] with perform := ⟨[], some (.other 1, 0)⟩ }
  interruptedAfter := false
  responseCode := 0

/-- `connect` that has failed and is tried again configures the handle twice. -/
theorem not_configured_once :
    ¬ ∀ calls : List ConnectionCall, ∀ before, before <+: calls →
      Apart .configure .reset (runConnection before
        (CurlConnection.new 19 freshHandle :
          CurlConnection (listMap fun a b => a == b))).1.invoked := by
  intro h
  have hinvoked : (runConnection [.connect connectFailing, .connect connectFailing]
      (CurlConnection.new 19 freshHandle :
        CurlConnection (listMap fun a b => a == b))).1.invoked = [.configure, .configure] := rfl
  have hapart := h _ _ (List.prefix_refl [.connect connectFailing, .connect connectFailing])
  rw [hinvoked] at hapart
  exact absurd (hapart [] [] [] rfl) List.not_mem_nil

end Chttpc
