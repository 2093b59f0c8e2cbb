import Chttpc.ConfigureProtocol

/-!
# The request headers that libcurl has been given

libcurl keeps the pointer to the list of request headers that `nativeConfigure` gives it, so
whenever it performs, the list must not have been changed since.

Three native calls change the list.  The others leave it as it is, and libcurl with what it
has been given (`quiet_handed`), and behind a `curl.configure` that comes back libcurl has been
given the list (`handed_configure`).  The setters of the connection are guarded: as long as the
flag `connected` is up, nobody gets to the list, so nothing comes between `curl.configure` and
what libcurl performs (`InStep`).
-/

namespace Chttpc
open Program Runs

/-- libcurl has been given the list of request headers as it is. -/
def Transfer.Handed (t : Transfer) : Prop := t.curl.requestHeaders = t.ctrl.outHeaders

/-! ## Native calls -/

section Native
variable {t : Transfer}

theorem Transfer.Handed.of_outHeaders (h : t.Handed) {ctrl : CurlData}
    (heq : ctrl.outHeaders = t.ctrl.outHeaders) : ({ t with ctrl } : Transfer).Handed :=
  Eq.trans h heq.symm

theorem outHeaders_of_io {ctrl ctrl' : CurlData} (h : ctrl'.io = ctrl.io) :
    ctrl'.outHeaders = ctrl.outHeaders := congrArg (·.outHeaders) h

/-- While the loop performs, the list stays. -/
theorem handed_invariant : Transfer.Invariant Transfer.Handed fun _ => True where
  io := fun _ _ hio h => h.of_outHeaders (outHeaders_of_io hio)
  receive := by
    intro t n _ _ h
    unfold Transfer.receiveChunk
    dsimp only
    rw [CurlData.writeCallback_eq, Libcurl.afterWrite_eq]
    exact h
  send := by
    intro t capacity _ _ h
    unfold Transfer.sendChunk
    dsimp only
    rw [Libcurl.afterRead_eq]
    split
    · rw [CurlData.readCallback_eq]
      exact h
    · exact h
  wait := fun _ _ h => h

theorem handed_carries : Transfer.Carries Transfer.Handed fun _ => True where
  toSteady := handed_invariant.toSteady
  resumeReceiving := fun _ h => h
  resumeSending := fun _ h => h
  needInput := fun _ h => h
  needOutput := fun _ h => h
  release := fun _ h => h

/-- `nativeConfigure` hands over the list. -/
theorem handed_attach (c : Configure) (t : Transfer) : (c.attach t).Handed := by
  unfold Configure.attach
  dsimp only
  split
  · rfl
  · rfl

theorem handed_locked (h : t.Handed) (hfree : t.ctrl.busy = false) {failure : Returned}
    {method : Transfer → Option (CurlData × Returned)}
    (hmethod : ∀ answer, method t.entered = some answer → answer.1.outHeaders = t.ctrl.outHeaders) :
    (Transfer.locked failure method t).1.Handed := by
  rw [Transfer.locked, Transfer.acquire_free hfree]
  show (Program.andThen _ _ t.entered).1.Handed
  unfold Program.andThen
  dsimp only
  cases hanswer : method t.entered with
  | none => exact h
  | some answer => exact Eq.trans h (hmethod answer hanswer).symm

theorem outHeaders_outHeader {ctrl ctrl' : CurlData} {platform : Platform} {alloc : HeaderAlloc}
    {stringOk : Bool} {key : JString} {result : Option JString}
    (h : ctrl.outHeader platform alloc stringOk key = some (ctrl', result)) :
    ctrl'.outHeaders = ctrl.outHeaders := by
  unfold CurlData.outHeader at h
  split at h
  · cases h
    rfl
  split at h
  · cases h
  split at h
  · cases h
  · cases h
    rfl
  · split at h
    · cases h
      rfl
    · cases h
      rfl

/-- **Every call that does not change the list keeps libcurl in step with it**, at every
instant. -/
theorem quiet_handed : Quiet Transfer.Handed := by
  intro call hcall
  refine keeps_iff.mpr fun t h => ?_
  cases hbusy : t.ctrl.busy with
  | true =>
    obtain ⟨returned, htaken⟩ := call.run_taken hbusy
    rw [htaken]
    exact h
  | false =>
    have hok := call.all_true
    cases call with
    | nativeConfigure c =>
      exact handed_carries.nativeConfigure hok hbusy
        (fun _ => h)
        fun _ => handed_attach c _
    | read r => exact handed_carries.read hok hbusy h
    | write w =>
      show (Transfer.write w t).1.Handed
      cases hgoal : t.ctrl.goalReached with
      | true =>
        rw [Transfer.write_closed hbusy hgoal]
        exact h
      | false =>
        rw [Transfer.write_open hbusy hgoal]
        exact handed_carries.writeOpen hok h
    | closeOutput c => exact handed_carries.closeOutput hok hbusy h
    | reset =>
      show (Transfer.reset t).1.Handed
      rw [Transfer.reset, Transfer.acquire_free hbusy]
      show (t.entered.detach.modify CurlData.reset).Handed
      unfold Transfer.detach
      split
      · exact h
      · exact h
    | getHeaders outHeaders alloc =>
      refine handed_locked h hbusy fun answer hanswer => ?_
      split at hanswer
      · obtain ⟨result, -, rfl⟩ := Option.map_eq_some_iff.mp hanswer
        rfl
      · cases hanswer
        rfl
    | outHeader alloc stringOk key =>
      refine handed_locked h hbusy fun answer hanswer => ?_
      obtain ⟨⟨ctrl, str⟩, hctrl, rfl⟩ := Option.map_eq_some_iff.mp hanswer
      have hsame : ctrl.outHeaders = t.entered.ctrl.outHeaders := outHeaders_outHeader hctrl
      exact hsame
    | header stringOk key l beyond =>
      refine handed_locked h hbusy fun answer hanswer => ?_
      cases hanswer
      rfl
    | intHeader code default key l beyond =>
      refine handed_locked h hbusy fun answer hanswer => ?_
      cases hanswer
      rfl
    | setOptionInt value option =>
      refine handed_locked h hbusy fun answer hanswer => ?_
      cases hanswer
      rfl
    | setHeader alloc key value => cases hcall
    | addHeader alloc key value => cases hcall
    | clearHeaders => cases hcall

/-- **A `curl.configure` that comes back** has given libcurl the list. -/
theorem handed_configure {c : Configure} {url newUrl : MutableUrl} {t' : Transfer}
    (h : Transfer.configure c url t = (t', some (.ok newUrl))) : t'.Handed := by
  obtain ⟨returned, hcall, hquiet, -⟩ := nativeConfigure_of_configure h
  obtain ⟨hfree, hbuffer⟩ := Transfer.passed_of_nativeConfigure hcall hquiet
  have hhanded := handed_carries.nativeConfigure (Call.all_true (.nativeConfigure (c.withUrl url)))
    hfree (fun hnone => Bool.noConfusion (hnone.symm.trans hbuffer)) fun _ => handed_attach _ _
  rw [hcall] at hhanded
  exact hhanded

end Native

/-! ## The ledger -/

/-- Whenever libcurl performs, it has been given the list of request headers as it is, and no
native method that changes the list has been called since `curl.configure`. -/
def Given (events : List HandleEvent) : Prop :=
  ∀ before t after, events = before ++ .perform t :: after →
    t.Handed ∧ Since .configure .edit before

theorem given_concat {events : List HandleEvent} (h : Given events) {event : HandleEvent}
    (hevent : ∀ t, event = .perform t → t.Handed ∧ Since .configure .edit events) :
    Given (events ++ [event]) := by
  intro before t after heq
  rcases List.eq_nil_or_concat after with rfl | ⟨init, last, rfl⟩
  · obtain ⟨rfl, hsame⟩ := List.append_inj' heq rfl
    exact hevent t (List.singleton_inj.mp hsame)
  · have hconcat : events ++ [event] = (before ++ .perform t :: init) ++ [last] := by
      simpa using heq
    exact h before t init (List.append_inj_left' hconcat rfl)

/-- What is not performed gives nothing new to show. -/
theorem given_concat_other {events : List HandleEvent} (h : Given events) {event : HandleEvent}
    (hevent : ∀ t, event ≠ .perform t) : Given (events ++ [event]) :=
  given_concat h fun t ht => absurd ht (hevent t)

theorem configure_ne_perform (t : Transfer) : HandleEvent.configure ≠ .perform t := by
  intro h
  cases h

theorem edit_ne_perform (t : Transfer) : HandleEvent.edit ≠ .perform t := by
  intro h
  cases h

namespace CurlConnection
variable {equals : JString → JString → Bool} {H : HdrMap equals} {conn : CurlConnection H}

/-- libcurl has been given the list, and nothing has changed it since. -/
structure Handed (conn : CurlConnection H) : Prop where
  native : conn.native.Handed
  since : Since .configure .edit conn.events

/-- **The invariant**: as long as the connection is connected, libcurl has been given the list,
and it has whenever it has performed. -/
structure InStep (conn : CurlConnection H) : Prop where
  handed : conn.connected = true → Handed conn
  given : Given conn.events

/-- A native method is about to be called in which libcurl performs. -/
def performing (conn : CurlConnection H) : CurlConnection H :=
  { conn with events := conn.events ++ [.perform conn.native] }

theorem InStep.new (sdkInt : Nat) (native : Transfer) :
    InStep (CurlConnection.new sdkInt native : CurlConnection H) where
  handed := by simp [CurlConnection.new]
  given := by simp [Given, CurlConnection.new]

/-- The invariant depends on the flag, the handle and the ledger. -/
theorem InStep.of_same {conn' : CurlConnection H} (h : InStep conn)
    (hconnected : conn'.connected = conn.connected) (hevents : conn'.events = conn.events)
    (hnative : conn.native.Handed → conn'.native.Handed) : InStep conn' where
  handed hc :=
    have hhanded := h.handed (hconnected.symm.trans hc)
    ⟨hnative hhanded.native, hevents ▸ hhanded.since⟩
  given := hevents ▸ h.given

theorem InStep.of_stays {conn' : CurlConnection H} (h : InStep conn)
    (hstays : Stays Transfer.Handed conn conn') : InStep conn' :=
  h.of_same (congrArg Prod.fst hstays.link) hstays.events hstays.native

/-- A change of the list, of a connection that is not connected. -/
theorem InStep.edit (h : InStep conn) (hconnected : conn.connected = false) (native : Transfer) :
    InStep { conn with native, events := conn.events ++ [.edit] } where
  handed hc := Bool.noConfusion (hconnected.symm.trans hc)
  given := given_concat_other h.given edit_ne_perform

/-- libcurl performs on the list that it has been given. -/
theorem InStep.performing (h : InStep conn) (hhanded : Handed conn) : InStep conn.performing where
  handed _ := ⟨hhanded.native, hhanded.since.concat (edit_ne_perform conn.native).symm⟩
  given := given_concat h.given fun t ht => by
    cases ht
    exact ⟨hhanded.native, hhanded.since⟩

/-- From `base` the connection has stayed connected, if it was. -/
def Advances (base conn : CurlConnection H) : Prop :=
  InStep conn ∧ (base.connected = true → conn.connected = true)

theorem linked_advances (base : CurlConnection H) : Linked Transfer.Handed (Advances base) where
  quiet := quiet_handed
  stays := fun _ _ hstays h =>
    ⟨h.1.of_stays hstays, fun hbase => (congrArg Prod.fst hstays.link).trans (h.2 hbase)⟩

theorem linked_connected (base : CurlConnection H) :
    Linked Transfer.Handed fun conn => Advances base conn ∧ conn.connected = true where
  quiet := quiet_handed
  stays := fun conn conn' hstays h => ⟨(linked_advances base).stays conn conn' hstays h.1,
    (congrArg Prod.fst hstays.link).trans h.2⟩

/-- The invariant, of a connection that is not connected. -/
def Resting (conn : CurlConnection H) : Prop := InStep conn ∧ conn.connected = false

theorem linked_resting : Linked Transfer.Handed (Resting : CurlConnection H → Prop) where
  quiet := quiet_handed
  stays := fun _ _ hstays h =>
    ⟨h.1.of_stays hstays, (congrArg Prod.fst hstays.link).trans h.2⟩

theorem keeps_resting_resetHandle : Keeps Resting (resetHandle : Java H Unit) := by
  refine Throws.triple_update_bind (M := Resting) (fun conn h => ?_)
    (Throws.keeps_bind (linked_resting.callNative (quiet_handed .reset rfl)) fun _ =>
      Throws.keeps_pure _)
  exact ⟨h.1.of_same rfl rfl id, h.2⟩

/-! ## Connecting -/

/-- `curl.configure` has been called, and the connection is not connected yet. -/
structure Configured (conn : CurlConnection H) : Prop where
  connected : conn.connected = false
  given : Given conn.events
  since : Since .configure .edit conn.events

theorem linked_configured : Linked (fun _ => True) (Configured : CurlConnection H → Prop) where
  quiet := quiet_true
  stays := fun _ _ hstays h =>
    ⟨(congrArg Prod.fst hstays.link).trans h.connected, hstays.events ▸ h.given,
      hstays.events ▸ h.since⟩

/-- **`curl.configure` hands over the list**, if it comes back. -/
theorem triple_configureHandle (c : Configure) :
    Triple (fun conn : CurlConnection H => InStep conn ∧ conn.connected = false)
      (configureHandle c : Java H Unit)
      (fun r conn => Configured conn ∧ (r.isOk = true → conn.native.Handed)) Configured := by
  refine Throws.triple_update_bind (M := Configured) (fun conn h => ?_) ?_
  · exact ⟨h.2, given_concat_other h.1.given configure_ne_perform, since_concat_self _ _ _⟩
  refine Throws.triple_read_bind fun url => ?_
  refine Throws.triple_bind (Q := fun r conn => Configured conn ∧
    ∀ newUrl, r = .ok (.ok newUrl) → conn.native.Handed) (Throws.triple_lift ?_) (fun result => ?_)
    fun _ _ h => ⟨h.1, nofun⟩
  · intro conn h
    unfold onHandle
    rcases hrun : Transfer.configure c url conn.native with ⟨t, _ | result⟩
    · exact linked_configured.stays conn _ ⟨rfl, rfl, id⟩ h.1
    · refine ⟨linked_configured.stays conn _ ⟨rfl, rfl, id⟩ h.1, fun newUrl hresult => ?_⟩
      cases hresult
      exact handed_configure hrun
  · cases result with
    | error e => exact Throws.triple_throw fun conn h => ⟨h.1, nofun⟩
    | ok newUrl =>
      exact Throws.triple_update fun conn h =>
        ⟨linked_configured.stays conn _ ⟨rfl, rfl, id⟩ h.1, fun _ => h.2 newUrl rfl⟩

/-- **`connect` keeps the invariant**, and when it returns the connection is connected. -/
theorem establishes_connect {base : CurlConnection H} (h : InStep base) (e : Connecting) :
    Establishes (Advances base) (fun conn => Advances base conn ∧ conn.connected = true) base
      (connect e : Java H Unit) := by
  refine Throws.triple_read_bind fun connected => Triple.ite (fun hconnected => ?_) fun hnot => ?_
  · refine Throws.triple_pure fun conn hconn => ?_
    obtain ⟨rfl, hconn⟩ := hconn
    exact ⟨⟨h, id⟩, fun _ => ⟨⟨h, id⟩, hconn.trans hconnected⟩⟩
  have hadvances {conn : CurlConnection H} (hconn : Configured conn)
      (hbase : base.connected = false) : Advances base conn :=
    ⟨⟨fun hc => Bool.noConfusion (hconn.connected.symm.trans hc), hconn.given⟩,
      fun hc => Bool.noConfusion (hbase.symm.trans hc)⟩
  by_cases hsame : base.connected = connected
  case neg =>
    rintro conn ⟨rfl, hconn⟩
    exact absurd hconn hsame
  have hbase : base.connected = false := hsame.trans (Bool.not_eq_true _ ▸ hnot)
  refine Triple.ite (fun _ => Throws.triple_throw fun conn hconn => ?_) fun _ => ?_
  · obtain rfl := hconn.1
    exact ⟨⟨h, id⟩, nofun⟩
  have hconfigure : Triple (fun conn => conn = base ∧ conn.connected = connected)
      (configure e : Java H Unit)
      (fun r conn => Advances base conn ∧ (r.isOk = true → Configured conn ∧ conn.native.Handed))
      (Advances base) := by
    refine Throws.triple_read_bind fun sdkInt => Throws.triple_read_bind fun settings => ?_
    refine Triple.ite (fun _ => Throws.triple_throw fun conn hconn => ?_) fun _ => ?_
    · obtain rfl := hconn.1.1.1
      exact ⟨⟨h, id⟩, nofun⟩
    · refine (triple_configureHandle _).weaken (fun conn hconn => ?_)
        (fun r conn hconn => ⟨hadvances hconn.1 hbase, fun hr => ⟨hconn.1, hconn.2 hr⟩⟩)
        fun conn hconn => hadvances hconn hbase
      obtain rfl := hconn.1.1.1
      exact ⟨h, hbase⟩
  refine Throws.triple_bind hconfigure (fun _ => ?_) fun _ conn hconn => ⟨hconn.1, nofun⟩
  refine Triple.ite (fun _ => Throws.triple_throw fun conn hconn => ⟨hconn.1, nofun⟩) fun _ => ?_
  refine Throws.triple_update_bind (M := fun conn => Advances base conn ∧ conn.connected = true)
    (fun conn hconn => ?_) ?_
  · obtain ⟨hconfigured, hnative⟩ := hconn.2 rfl
    exact ⟨⟨⟨fun _ => ⟨hnative, hconfigured.since⟩, hconfigured.given⟩, fun _ => rfl⟩, rfl⟩
  refine Throws.triple_bind (((linked_connected base).fetchResponseCode e.responseCode).weaken
    (fun _ => id) (fun _ _ => id) fun _ hconn => hconn.1) (fun _ => ?_)
    fun _ conn hconn => ⟨hconn.1, nofun⟩
  exact Throws.triple_pure fun conn hconn => ⟨hconn.1, fun _ => hconn⟩

end CurlConnection

/-- The calls that have nothing to do with streams and `reset`. -/
def ConnectionCall.Plain : ConnectionCall → Prop
  | .getContent _ | .getContentOf .. | .getInputStream _ | .getOutputStream _ | .getErrorStream
  | .readInput .. | .writeOutput .. | .closeInput | .closeOutput _ | .reset _ | .disconnect _ => False
  | _ => True

open CurlConnection in
/-- **A call that has nothing to do with streams keeps the invariant**, at every instant. -/
theorem CurlConnection.InStep.run {equals : JString → JString → Bool} {H : HdrMap equals}
    {base : CurlConnection H} (h : InStep base) {call : ConnectionCall} (hplain : call.Plain) :
    Advances base (call.run base).1 := by
  by_cases haside : call.Aside
  · exact (linked_advances base).aside
      (fun conn _ _ hconnected hconn => ⟨hconn.1.edit hconnected _, hconn.2⟩) haside ⟨h, id⟩
  have hreset : ∀ c, call ≠ .reset c ∧ call ≠ .disconnect c := by
    refine fun c => ⟨?_, ?_⟩
    all_goals
      rintro rfl
      exact hplain
  cases hconnecting : call.connecting base with
  | none =>
    rw [run_of_not_connecting hconnecting haside hreset]
    exact ⟨h, id⟩
  | some e =>
    refine run_of_connecting (J := fun conn => Advances base conn ∧ conn.connected = true)
      (fun _ hconn => hconn.1) (linked_connected base) (fun conn output hconn => ?_) hconnecting
      (establishes_connect h e)
    exact ⟨⟨hconn.1.1.of_same rfl rfl id, hconn.1.2⟩, hconn.2⟩

end Chttpc
