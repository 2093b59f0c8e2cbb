import Chttpc.ConfigureProtocol
import Chttpc.ResponseStore

/-!
# A connection that is reset and connected again

`reset()` takes the response code back and clears the handle, whatever has been done to the
connection before (`renewed_reset`), and `disconnect()` clears the request headers as well.
The map that `getHeaderFields()` has made and the message that `getResponseMessage()` has
found are not taken back.  A `connect()` behind it that comes back normally is one call of
`nativeConfigure` and one question for the response code (`connected_of_connect`).
-/

namespace Chttpc
open Program

/-! ## A handle that has been reset -/

namespace Transfer
variable {platform : Platform} {rodata : Nat → UInt8} {t t' : Transfer}

/-- A handle as `reset` leaves it. -/
structure Cleared (platform : Platform) (rodata : Nat → UInt8) (t : Transfer) : Prop where
  platform_eq : t.platform = platform
  rodata_eq : t.rodata = rodata
  isReset : t.ctrl.IsReset
  comparesNames : t.ctrl.ComparesNames
  state : t.ctrl.state = .zero
  env : t.ctrl.env = ⟨none⟩

theorem Cleared.of_sane (h : t.Sane platform rodata) (hfree : t.ctrl.busy = false) :
    ∃ t', reset t = (t', some .void) ∧ t'.Cleared platform rodata := by
  have hentered : t.entered.Sane platform rodata := h.of_store rfl rfl rfl
  have hdetached := sane_detach hentered
  have henv : t.entered.detach.ctrl.env = ⟨none⟩ := by
    unfold detach
    split <;> rfl
  have hreset := hdetached.store.isReset
  rw [reset, acquire_free hfree]
  refine ⟨_, rfl, hdetached.platform_eq, hdetached.rodata_eq, ?_, hdetached.store.comparesNames,
    rfl, henv⟩
  exact ⟨hreset.wellFormed, hreset.entries, hreset.headerPairCount, hreset.seenHeaderEnd,
    hreset.headerBufSize, hreset.older⟩

/-- A call that leaves the store and the flags alone. -/
theorem Cleared.of_store (h : t.Cleared platform rodata) (hplatform : t'.platform = t.platform)
    (hrodata : t'.rodata = t.rodata) (hstore : t'.ctrl.store = t.ctrl.store)
    (hstate : t'.ctrl.state = t.ctrl.state) (henv : t'.ctrl.env = ⟨none⟩) :
    t'.Cleared platform rodata := by
  have hheaders : t'.ctrl.headers = t.ctrl.headers := congrArg (·.headers) hstore
  have hblocks : t'.ctrl.blocks = t.ctrl.blocks := congrArg (·.blocks) hstore
  have hpairs : t'.ctrl.headerPairs = t.ctrl.headerPairs := congrArg (·.headerPairs) hstore
  have hcount : t'.ctrl.headerPairCount = t.ctrl.headerPairCount :=
    congrArg (·.headerPairCount) hstore
  have hbuf : t'.ctrl.headerBufSize = t.ctrl.headerBufSize := congrArg (·.headerBufSize) hstore
  refine ⟨hplatform.trans h.platform_eq, hrodata.trans h.rodata_eq, ⟨?_, ?_, ?_, ?_, ?_, ?_⟩, ?_,
    hstate.trans h.state, henv⟩
  · rw [hheaders]
    exact h.isReset.wellFormed
  · rw [hheaders]
    exact h.isReset.entries
  · exact hcount.trans h.isReset.headerPairCount
  · rw [hstate]
    exact h.isReset.seenHeaderEnd
  · rw [hbuf]
    exact h.isReset.headerBufSize
  · rw [hpairs, hblocks]
    exact h.isReset.older
  · rw [CurlData.ComparesNames, hheaders]
    exact h.comparesNames

end Transfer

namespace CurlConnection
variable {equals : JString → JString → Bool} {H : HdrMap equals} {platform : Platform}
  {rodata : Nat → UInt8} {before conn conn' : CurlConnection H}

/-- A native method that is called and does not throw. -/
theorem callNative_returns {method : Program Transfer Returned} {returned : Returned}
    (h : callNative method conn = (conn', some (.ok returned))) :
    ∃ t, method conn.native = (t, some returned) ∧ t.ctrl.env.pending = none ∧
      conn' = { conn with native := t } := by
  obtain ⟨c₁, r, hlift, hrest⟩ := Throws.bind_eq_ok h
  obtain ⟨c₂, pending, hread, hrest⟩ := Throws.bind_eq_ok hrest
  obtain ⟨rfl, hpending⟩ := Throws.read_eq_ok hread
  have hrun := Throws.lift_eq_ok hlift
  cases pending with
  | some e => cases hrest
  | none =>
    cases hrest
    have hreturned : (method conn.native).2 = some returned := congrArg Prod.snd hrun
    obtain rfl : { conn with native := (method conn.native).1 } = conn' := congrArg Prod.fst hrun
    exact ⟨_, Prod.ext rfl hreturned, hpending, rfl⟩

/-! ## `reset` -/

/-- The handle of the connection can be reset, and is one of this platform and this library. -/
def Resettable (platform : Platform) (rodata : Nat → UInt8) (conn : CurlConnection H) : Prop :=
  conn.native.Sane platform rodata

/-- A connection that has been reset, and what it still has of what it was before. -/
structure Renewed (platform : Platform) (rodata : Nat → UInt8) (before conn : CurlConnection H) :
    Prop where
  native : conn.native.Cleared platform rodata
  connected : conn.connected = false
  responseCode : conn.responseCode = -1
  headerMap : conn.headerMap = before.headerMap
  responseMessage : conn.responseMessage = before.responseMessage

/-- The connection has been taken down, but for the handle. -/
structure TakenAside (platform : Platform) (rodata : Nat → UInt8)
    (before conn : CurlConnection H) : Prop where
  native : conn.native.Sane platform rodata
  connected : conn.connected = false
  responseCode : conn.responseCode = -1
  headerMap : conn.headerMap = before.headerMap
  responseMessage : conn.responseMessage = before.responseMessage

theorem TakenAside.closeQuietly (h : TakenAside platform rodata before conn) {c : Closing}
    {output : OutputStream} (hclose : closeQuietly c output conn = (conn', some (.ok ()))) :
    TakenAside platform rodata before conn' := by
  unfold CurlConnection.closeQuietly at hclose
  split at hclose
  · cases hclose
    exact h
  · obtain ⟨c₁, result, hlift, hrest⟩ := Throws.bind_eq_ok hclose
    have hquiet : Quiet (Transfer.Sane platform rodata) := fun call _ => keeps_sane call
    have hnative := keeps_iff.mp (hquiet.closeOpen c) conn.native h.native
    obtain rfl : { conn with native := (closeOpen c conn.native).1 } = c₁ := congrArg Prod.fst hlift
    generalize uncaught result = thrown at hrest
    cases thrown with
    | some e => cases hrest
    | none =>
      cases hrest
      exact ⟨hnative, h.connected, h.responseCode, h.headerMap, h.responseMessage⟩

theorem TakenAside.resetHandle (h : TakenAside platform rodata before conn)
    (hreset : resetHandle conn = (conn', some (.ok ()))) :
    Renewed platform rodata before conn' := by
  obtain ⟨c₁, _, hupdate, hrest⟩ := Throws.bind_eq_ok hreset
  cases hupdate
  obtain ⟨c₂, returned, hcall, hrest⟩ := Throws.bind_eq_ok hrest
  cases hrest
  obtain ⟨t, hrun, hquiet, rfl⟩ := callNative_returns hcall
  -- without the lock the native `reset` would have left an exception behind
  have hfree : conn.native.ctrl.busy = false := Transfer.free_of_acquire hrun hquiet
  obtain ⟨t', hrun', hcleared⟩ := Transfer.Cleared.of_sane h.native hfree
  obtain rfl : t' = t := congrArg Prod.fst (hrun'.symm.trans hrun)
  exact ⟨hcleared, h.connected, h.responseCode, h.headerMap, h.responseMessage⟩

/-- **`reset()`, if it comes back normally**, clears the handle and forgets the response code. -/
theorem renewed_reset (h : Resettable platform rodata before) {c : Closing}
    (hreset : reset c before = (conn, some (.ok ()))) : Renewed platform rodata before conn := by
  obtain ⟨c₁, _, hdown, hrest⟩ := Throws.bind_eq_ok hreset
  cases hdown
  -- both streams are dropped before the output is closed, and the caches are left alone
  obtain ⟨c₂, _, hinput, hrest⟩ := Throws.bind_eq_ok hrest
  cases hinput
  obtain ⟨c₃, outputStream, hread, hrest⟩ := Throws.bind_eq_ok hrest
  obtain ⟨rfl, -⟩ := Throws.read_eq_ok hread
  obtain ⟨c₄, _, houtput, hrest⟩ := Throws.bind_eq_ok hrest
  cases houtput
  have haside : TakenAside platform rodata before
      { before with
        connected := false, responseCode := -1, unfinished := true, inputStream := none
        outputStream := none } := ⟨h, rfl, rfl, rfl, rfl⟩
  cases outputStream with
  | none => exact haside.resetHandle hrest
  | some output =>
    obtain ⟨c₅, _, hclose, hrest⟩ := Throws.bind_eq_ok hrest
    exact (haside.closeQuietly hclose).resetHandle hrest

/-- `disconnect()` forgets the request headers as well. -/
theorem renewed_disconnect (h : Resettable platform rodata before) {c : Closing}
    (hdisconnect : disconnect c before = (conn, some (.ok ()))) :
    Renewed platform rodata before conn := by
  obtain ⟨c₁, _, hreset, hrest⟩ := Throws.bind_eq_ok hdisconnect
  have hrenewed := renewed_reset h hreset
  obtain ⟨c₂, _, hevents, hrest⟩ := Throws.bind_eq_ok hrest
  cases hevents
  obtain ⟨c₃, returned, hcall, hrest⟩ := Throws.bind_eq_ok hrest
  cases hrest
  obtain ⟨t, hrun, hquiet, rfl⟩ := callNative_returns hcall
  have hfree : c₁.native.ctrl.busy = false := Transfer.free_of_acquire hrun hquiet
  rw [Transfer.clearHeaders, Transfer.locked, Transfer.acquire_free hfree] at hrun
  cases hrun
  exact ⟨hrenewed.native.of_store rfl rfl rfl rfl rfl, hrenewed.connected, hrenewed.responseCode,
    hrenewed.headerMap, hrenewed.responseMessage⟩

/-! ## The calls before -/

theorem linked_resettable :
    Linked (Transfer.Sane platform rodata)
      (Resettable platform rodata : CurlConnection H → Prop) :=
  ⟨fun call _ => keeps_sane call, fun _ _ hstays h => hstays.native h⟩

theorem keeps_resettable_connect (e : Connecting) :
    Keeps (Resettable platform rodata) (connect e : Java H Unit) := by
  have hconfigure : Keeps (Resettable platform rodata) (configure e : Java H Unit) :=
    (linked_resettable.configure fun _ _ h => h).weaken (fun _ => id)
      (fun _ _ h => h.elim And.left id) fun _ => id
  refine Throws.keeps_bind (Throws.keeps_read _) fun _ => Keeps.ite (fun _ => ?_) fun _ => ?_
  · exact Throws.keeps_pure _
  refine Keeps.ite (fun _ => Throws.keeps_throw _) fun _ => ?_
  refine Throws.keeps_bind hconfigure fun _ => ?_
  refine Keeps.ite (fun _ => Throws.keeps_throw _) fun _ => ?_
  refine Throws.keeps_bind (Throws.keeps_update fun _ => id) fun _ => ?_
  exact Throws.keeps_bind (linked_resettable.fetchResponseCode _) fun _ => Throws.keeps_pure _

theorem keeps_resettable_reset (c : Closing) :
    Keeps (Resettable platform rodata) (reset c : Java H Unit) := by
  have hhandle : Keeps (Resettable platform rodata) (resetHandle : Java H Unit) :=
    Throws.keeps_bind (Throws.keeps_update fun _ => id) fun _ =>
      Throws.keeps_bind (linked_resettable.callNative (keeps_sane .reset)) fun _ =>
        Throws.keeps_pure _
  refine Throws.keeps_bind (Throws.keeps_update fun _ => id) fun _ => ?_
  refine Throws.keeps_bind (Throws.keeps_update fun _ => id) fun _ => ?_
  refine Throws.keeps_bind (Throws.keeps_read _) fun outputStream => ?_
  refine Throws.keeps_bind (Throws.keeps_update fun _ => id) fun _ => ?_
  cases outputStream with
  | none => exact hhandle
  | some output =>
    exact Throws.keeps_bind (linked_resettable.closeQuietly c output) fun _ => hhandle

/-- **Whatever is called**, the handle of a connection can be reset. -/
theorem Resettable.run (h : Resettable platform rodata conn) (call : ConnectionCall) :
    Resettable platform rodata (call.run conn).1 := by
  have hedit (conn : CurlConnection H) (call : Call) (h : Resettable platform rodata conn) :
      (call.run conn.native).1.Sane platform rodata := keeps_iff.mp (keeps_sane call) _ h
  by_cases haside : call.Aside
  · exact linked_resettable.aside (fun conn call _ _ h => hedit conn call h) haside h
  by_cases hreset : ∀ c, call ≠ .reset c ∧ call ≠ .disconnect c
  · cases hconnecting : call.connecting conn with
    | none =>
      rw [run_of_not_connecting hconnecting haside hreset]
      exact h
    | some e =>
      refine run_of_connecting (J := Resettable platform rodata) (fun _ => id) linked_resettable
        (fun _ _ => id) hconnecting ?_
      refine (keeps_resettable_connect e).weaken (fun c hc => ?_) (fun _ _ hc => ⟨hc, fun _ => hc⟩)
        fun _ => id
      rw [hc]
      exact h
  · obtain ⟨c, hc⟩ := not_forall.mp hreset
    rcases not_and_or.mp hc with hc | hc
    · rw [not_not.mp hc]
      exact keeps_iff.mp (keeps_resettable_reset c) conn h
    · rw [not_not.mp hc]
      have hdisconnect : Keeps (Resettable platform rodata) (disconnect c : Java H Unit) :=
        Throws.keeps_bind (keeps_resettable_reset c) fun _ =>
          triple_editHeaders _ fun conn h => hedit conn .clearHeaders h
      exact keeps_iff.mp hdisconnect conn h

theorem resettable_runConnection (sdkInt : Nat) {calls : List ConnectionCall}
    (hrun : runConnection calls (CurlConnection.new sdkInt (Transfer.fresh platform rodata)) =
      (conn, some ())) : Resettable platform rodata conn := by
  have hkeeps : Keeps (Resettable platform rodata : CurlConnection H → Prop)
      (runConnection calls) :=
    Keeps.forEach fun call _ => keeps_iff.mpr fun _ h => Resettable.run h call
  have hrun' := keeps_iff.mp hkeeps (CurlConnection.new sdkInt (Transfer.fresh platform rodata))
    Transfer.sane_fresh
  rw [hrun] at hrun'
  exact hrun'

/-! ## `connect` -/

/-- The arguments of `curl.configure`, but for the URL. -/
def request (e : Connecting) (conn : CurlConnection H) : Configure :=
  conn.settings.toConfigure conn.sdkInt e.configure

/-- The connection is connected, and its handle is as `nativeConfigure` has left it. -/
structure Connected (e : Connecting) (conn conn' : CurlConnection H) : Prop where
  native : ∃ t returned,
    Transfer.nativeConfigure ((conn.request e).withUrl conn.url) conn.native = (t, some returned) ∧
      t.ctrl.env.pending = none ∧ conn'.native.ctrl.store = t.ctrl.store
  free : conn'.native.ctrl.busy = false
  connected : conn'.connected = true
  responseCode : conn'.responseCode = toInt32 (if e.responseCode = 0 then -1 else e.responseCode)
  headerMap : conn'.headerMap = conn.headerMap
  responseMessage : conn'.responseMessage = conn.responseMessage

theorem configure_returns {e : Connecting} (h : configure e conn = (conn', some (.ok ()))) :
    ∃ t returned url,
      Transfer.nativeConfigure ((conn.request e).withUrl conn.url) conn.native =
          (t, some returned) ∧
        t.ctrl.env.pending = none ∧ conn' = { conn.configuring with native := t, url } := by
  obtain ⟨c₁, sdkInt, hread, hrest⟩ := Throws.bind_eq_ok h
  obtain ⟨rfl, rfl⟩ := Throws.read_eq_ok hread
  obtain ⟨c₂, settings, hread, hrest⟩ := Throws.bind_eq_ok hrest
  obtain ⟨rfl, rfl⟩ := Throws.read_eq_ok hread
  split at hrest
  · cases hrest
  obtain ⟨c₃, _, hupdate, hrest⟩ := Throws.bind_eq_ok hrest
  cases hupdate
  obtain ⟨c₄, url, hread, hrest⟩ := Throws.bind_eq_ok hrest
  obtain ⟨rfl, rfl⟩ := Throws.read_eq_ok hread
  obtain ⟨c₅, result, hlift, hrest⟩ := Throws.bind_eq_ok hrest
  have hrun := Throws.lift_eq_ok hlift
  cases result with
  | error thrown => cases hrest
  | ok url =>
    cases hrest
    have hreturned : (Transfer.configure (c₂.request e) c₂.url c₂.native).2 = some (.ok url) :=
      congrArg Prod.snd hrun
    have hconn : { c₂.configuring with
        native := (Transfer.configure (c₂.request e) c₂.url c₂.native).1 } = c₅ :=
      congrArg Prod.fst hrun
    have hreturns : Transfer.configure (c₂.request e) c₂.url c₂.native = (_, some (.ok url)) :=
      Prod.ext rfl hreturned
    obtain ⟨returned, hcall, hquiet, -⟩ := nativeConfigure_of_configure hreturns
    exact ⟨_, returned, url, hcall, hquiet, by rw [← hconn]⟩

/-- **`connect()`, if it comes back normally**, has configured the handle and asked for the
response code. -/
theorem connected_of_connect {e : Connecting} (hdown : conn.connected = false)
    (hcode : conn.responseCode = -1) (hconnect : connect e conn = (conn', some (.ok ()))) :
    Connected e conn conn' := by
  obtain ⟨c₁, connected, hread, hrest⟩ := Throws.bind_eq_ok hconnect
  obtain ⟨rfl, rfl⟩ := Throws.read_eq_ok hread
  rw [if_neg (by rw [hdown]; decide)] at hrest
  unfold establish at hrest
  split at hrest
  · cases hrest
  obtain ⟨c₂, _, hconfigure, hrest⟩ := Throws.bind_eq_ok hrest
  split at hrest
  · cases hrest
  obtain ⟨c₃, _, hupdate, hrest⟩ := Throws.bind_eq_ok hrest
  cases hupdate
  obtain ⟨c₄, _, hfetch, hrest⟩ := Throws.bind_eq_ok hrest
  cases hrest
  obtain ⟨t, returned, url, hcall, hquiet, rfl⟩ := configure_returns hconfigure
  obtain ⟨c₅, responseCode, hread, hrest⟩ := Throws.bind_eq_ok hfetch
  obtain ⟨rfl, rfl⟩ := Throws.read_eq_ok hread
  -- the code has been -1 since the reset, so it is asked for
  rw [if_neg (by dsimp only [configuring]; omega)] at hrest
  obtain ⟨c₆, answer, hanswer, hrest⟩ := Throws.bind_eq_ok hrest
  obtain ⟨u, hrun, hquiet', rfl⟩ := callNative_returns hanswer
  obtain ⟨c₇, _, hupdate, hrest⟩ := Throws.bind_eq_ok hrest
  cases hupdate
  cases hrest
  have hfree : t.ctrl.busy = false := Transfer.free_of_acquire hrun hquiet'
  rw [Transfer.intHeader, Transfer.locked, Transfer.acquire_free hfree] at hrun
  cases hrun
  exact ⟨⟨t, returned, hcall, hquiet, rfl⟩, rfl, rfl, rfl, rfl, rfl⟩

end CurlConnection
end Chttpc
