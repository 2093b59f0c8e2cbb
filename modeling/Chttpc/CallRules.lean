import Chttpc.NativeCalls

/-!
# Rules for native calls

A property of a run of native calls is proved call by call, and most calls are
alike.  The calls for headers are functions of the handle that touch nothing a
transfer depends on (`Framed`), so `Call.cases_run` leaves one case for all of
them.  The methods that move the transfer keep every invariant of `curlPerform`
behind the few lines that are their own (`Transfer.Invariant`).
-/

namespace Chttpc

/-! ## The calls for headers -/

section Headers

/-- However a scan ends, it has raised no exception for the lock. -/
def NotRefused (env : JNIEnv) : Except Stop HeaderWriter → Prop
  | .ok w => w.env.threading = env.threading
  | .error (.outOfMemory w) => w.env.threading = env.threading
  | .error .neverReturns => True

section Scan
variable {env : JNIEnv} {w : HeaderWriter} (ctrl : CurlData) (platform : Platform)
  (alloc : ArrayAlloc)

theorem notRefused_put (hw : w.env.threading = env.threading) (text : List UInt8) :
    NotRefused env (w.put platform alloc text) := by
  unfold HeaderWriter.put
  split
  · exact (JNIEnv.threading_throw _ (by decide)).trans hw
  · show (HeaderWriter.setObjectArrayElement _ _).env.threading = _
    unfold HeaderWriter.setObjectArrayElement
    dsimp only
    split
    · exact hw
    · exact (JNIEnv.threading_throw _ (by decide)).trans hw

/-- A scan goes on from a writer that has not been refused. -/
theorem NotRefused.andThen {r : Except Stop HeaderWriter}
    {f : HeaderWriter → Except Stop HeaderWriter} (h : NotRefused env r)
    (hf : ∀ w, w.env.threading = env.threading → NotRefused env (f w)) :
    NotRefused env (match r with
      | .error stop => .error stop
      | .ok w => f w) := by
  cases r with
  | ok w => exact hf w h
  | error stop => exact h

theorem notRefused_writeValues : ∀ (blocks : List Nat) (w : HeaderWriter),
    w.env.threading = env.threading → NotRefused env (ctrl.writeValues platform alloc blocks w)
  | [], _, hw => hw
  | _ :: blocks, _, hw =>
      (notRefused_put platform alloc hw _).andThen fun w hw => notRefused_writeValues blocks w hw

theorem notRefused_writeEntry (entry : Entry CString Nat) (hw : w.env.threading = env.threading) :
    NotRefused env (ctrl.writeEntry platform alloc entry w) := by
  refine (notRefused_put platform alloc hw _).andThen fun w hw => ?_
  cases ctrl.ringOf entry with
  | none => trivial
  | some blocks =>
    exact (notRefused_writeValues ctrl platform alloc blocks w hw).andThen fun w hw => hw

theorem notRefused_writeEntries : ∀ (entries : List (Entry CString Nat)) (w : HeaderWriter),
    w.env.threading = env.threading → NotRefused env (ctrl.writeEntries platform alloc entries w)
  | [], _, hw => hw
  | entry :: entries, _, hw =>
      (notRefused_writeEntry ctrl platform alloc entry hw).andThen fun w hw =>
        notRefused_writeEntries entries w hw

theorem notRefused_writeRequestHeaders : ∀ (outHeaders : List (List UInt8)) (w : HeaderWriter),
    w.env.threading = env.threading →
      NotRefused env (CurlData.writeRequestHeaders platform alloc outHeaders w)
  | [], _, hw => hw
  | data :: outHeaders, w, hw => by
      unfold CurlData.writeRequestHeaders
      cases CurlData.requestHeader data with
      | none => exact notRefused_writeRequestHeaders outHeaders w hw
      | some pair =>
        exact (notRefused_put platform alloc hw _).andThen fun w hw =>
          (notRefused_put platform alloc hw _).andThen fun w hw =>
            notRefused_writeRequestHeaders outHeaders w hw

theorem threading_getResponseHeaders {result : CurlData.ArrayResult}
    (h : ctrl.getResponseHeaders platform alloc = some result) :
    result.env.threading = ctrl.env.threading := by
  unfold CurlData.getResponseHeaders at h
  dsimp only at h
  generalize List.replicate _ (none : Option JString) = strArray at h
  have hscan := notRefused_writeEntries ctrl platform alloc ctrl.headers.entries
    ⟨strArray, 0, [], ctrl.env⟩ rfl
  split at h
  · cases h; rfl
  split at h
  · cases h; exact JNIEnv.threading_throw _ (by decide)
  split at h
  · cases h; exact JNIEnv.threading_throw _ (by decide)
  split at h
  · cases h; exact JNIEnv.threading_throw _ (by decide)
  split at h
  · cases h; exact JNIEnv.threading_throw _ (by decide)
  split at h
  · rename_i hr
    rw [hr] at hscan
    cases h
    exact hscan
  · rename_i hr
    rw [hr] at hscan
    cases h
    exact hscan
  · cases h

theorem threading_getRequestHeaders :
    (ctrl.getRequestHeaders platform alloc).env.threading = ctrl.env.threading := by
  unfold CurlData.getRequestHeaders
  dsimp only
  generalize List.replicate _ (none : Option JString) = strArray
  have hscan := notRefused_writeRequestHeaders platform alloc
    (ctrl.outHeaders.take ctrl.outHeaderCount) ⟨strArray, 0, [], ctrl.env⟩ rfl
  split
  · rfl
  split
  · exact JNIEnv.threading_throw _ (by decide)
  split
  · exact JNIEnv.threading_throw _ (by decide)
  split
  · exact JNIEnv.threading_throw _ (by decide)
  split
  · rename_i hr
    rw [hr] at hscan
    exact hscan
  · rename_i hr
    rw [hr] at hscan
    exact hscan
  · rfl

theorem wire_throw {e : Throwable} (h : e ≠ threadingException) :
    ({ ctrl with env := ctrl.env.throw e } : CurlData).wire = ctrl.wire :=
  CurlData.wire_eq_of_io_eq (ctrl.io_throw h)

theorem wire_env {result : JNIEnv} (h : result.threading = ctrl.env.threading) :
    ({ ctrl with env := result } : CurlData).wire = ctrl.wire := by
  rw [CurlData.wire, CurlData.wire, CurlData.io, CurlData.io]
  dsimp only
  rw [h]

end Scan

/-- The function changes nothing but the request headers and the pending
exception, and is not refused the lock. -/
def Framed (method : Transfer → Option (CurlData × Returned)) : Prop :=
  ∀ t ctrl result, method t = some (ctrl, result) → ctrl.wire = t.ctrl.wire

/-- The calls that move the transfer, and the others, which are functions of the
handle. -/
inductive Call.Kind : Call → Type
  | nativeConfigure (c : Configure) : Kind (.nativeConfigure c)
  | read (r : BodyCall) : Kind (.read r)
  | write (w : BodyCall) : Kind (.write w)
  | closeOutput (c : Close) : Kind (.closeOutput c)
  | reset : Kind .reset
  | headers (call : Call) (failure : Returned)
      (method : Transfer → Option (CurlData × Returned))
      (run_eq : call.run = Transfer.locked failure method) (framed : Framed method) : Kind call

def Call.kind : (call : Call) → call.Kind
  | .nativeConfigure c => .nativeConfigure c
  | .read r => .read r
  | .write w => .write w
  | .closeOutput c => .closeOutput c
  | .reset => .reset
  | .getHeaders outHeaders alloc => .headers _ _ _ rfl <| by
      intro t ctrl result h
      split at h
      · obtain ⟨answer, hanswer, heq⟩ := Option.map_eq_some_iff.mp h
        cases heq
        exact wire_env _ (threading_getResponseHeaders _ _ _ hanswer)
      · cases h
        exact wire_env _ (threading_getRequestHeaders _ _ _)
  | .header stringOk key l beyond =>
    .headers _ _ _ (show Transfer.header stringOk key l beyond = _ from rfl) <| by
      intro t ctrl result h
      cases h
      dsimp only
      split
      · exact wire_throw _ (by decide)
      · rfl
  | .intHeader code default key l beyond =>
    .headers _ _ _ (show Transfer.intHeader code default key l beyond = _ from rfl) <| by
      intro t ctrl result h
      cases h
      rfl
  | .setHeader alloc key value => .headers _ _ _ rfl <| by
      intro t ctrl result h
      obtain ⟨ctrl', hctrl, heq⟩ := Option.map_eq_some_iff.mp h
      cases heq
      exact CurlData.wire_setHeader hctrl
  | .addHeader alloc key value =>
    .headers _ _ _ (show Transfer.addHeader alloc key value = _ from rfl) <| by
      intro t ctrl result h
      cases h
      exact CurlData.wire_addHeader value
  | .outHeader alloc stringOk key => .headers _ _ _ rfl <| by
      intro t ctrl result h
      obtain ⟨⟨ctrl', str⟩, hctrl, heq⟩ := Option.map_eq_some_iff.mp h
      cases heq
      exact CurlData.wire_outHeader hctrl
  | .clearHeaders => .headers _ _ _ (show Transfer.clearHeaders = _ from rfl) <| by
      intro t ctrl result h
      cases h
      rfl
  | .setOptionInt value option =>
    .headers _ _ _ (show Transfer.setOptionInt value option = _ from rfl) <| by
      intro t ctrl result h
      cases h
      rfl

@[elab_as_elim]
theorem Call.cases_run {motive : Call → Prop}
    (nativeConfigure : ∀ c, motive (.nativeConfigure c)) (read : ∀ r, motive (.read r))
    (write : ∀ w, motive (.write w)) (closeOutput : ∀ c, motive (.closeOutput c))
    (reset : motive .reset)
    (headers : ∀ call failure method, call.run = Transfer.locked failure method → Framed method →
      motive call) (call : Call) : motive call := by
  cases call.kind with
  | nativeConfigure c => exact nativeConfigure c
  | read r => exact read r
  | write w => exact write w
  | closeOutput c => exact closeOutput c
  | reset => exact reset
  | headers call failure method hrun hframed => exact headers call failure method hrun hframed

end Headers


/-! ## Arguments of `read` and `write` -/

/-- The arguments, as the Java streams check them: a range of an array, or a single
byte. -/
def BodyCall.InRange (call : BodyCall) : Prop :=
  match call.buf with
  | some buf => 0 ≤ call.off ∧ 0 ≤ call.count ∧ call.off + call.count ≤ buf.length
  | none => call.count = 1

/-! ## Handles without a transfer -/

/-- No transfer is under way and none has left a trace: a handle that can be
configured. -/
structure Transfer.Detached (t : Transfer) : Prop where
  busy : t.ctrl.busy = false
  state : t.ctrl.state = .zero
  readOverflow : t.ctrl.readOverflow = 0
  attached : t.curl.attached = false
  body : t.curl.body = []
  accepted : t.curl.accepted = 0
  uploaded : t.curl.uploaded = []
  endOfUpload : t.curl.endOfUpload = false
  copied : t.copied = []
  accesses : t.accesses = []

theorem detached_fresh (platform : Platform) (rodata : Nat → UInt8) :
    (Transfer.fresh platform rodata).Detached := ⟨rfl, rfl, rfl, rfl, rfl, rfl, rfl, rfl, rfl, rfl⟩

/-- `reset` takes an attached handle back to where it can be configured. -/
theorem detached_reset {t : Transfer} (hbusy : t.ctrl.busy = false)
    (hattached : t.ctrl.state.attached = true) :
    ∃ t', Transfer.reset t = (t', some .void) ∧ t'.Detached := by
  have hdetach : t.entered.detach =
      { t.entered with curl := t.curl.removeHandle, copied := [], accesses := [] } :=
    if_pos hattached
  refine ⟨{ t.entered.detach with
    ctrl := { t.entered.detach.ctrl.reset with busy := false } }, ?_, ?_⟩
  · rw [Transfer.reset, Transfer.acquire_free hbusy]
    rfl
  · rw [hdetach]
    exact ⟨rfl, rfl, rfl, rfl, rfl, rfl, rfl, rfl, rfl, rfl⟩

/-! ## Invariants of the methods -/

namespace Transfer

/-- A direction whose flag is clear needs no unpausing. -/
theorem resume_eq (flag : StateBits → Bool) (clear : CurlData → CurlData) (pause : Pause)
    (t : Transfer) : resume flag clear pause t =
      if flag t.ctrl.state then curlEasyPause pause (t.modify clear) else (t, some .ok) := by
  show (if flag t.ctrl.state = true then _ else pure CURLcode.ok : Program Transfer CURLcode) t = _
  split <;> rfl

end Transfer

namespace Transfer.Steady
open Program
variable {I : Transfer → Prop} {ok : Callback → Prop}

theorem configureMethod (h : Steady I ok) {c : Configure}
    (hperform : ∀ callback ∈ c.perform.callbacks, ok callback) (hloop : c.loop.All ok) :
    Keeps I (Transfer.connect c) := by
  refine Keeps.ite (fun _ => Keeps.pure _) fun _ => ?_
  refine Keeps.bind (h.curlMultiPerform hperform) fun answer => ?_
  refine Keeps.ite (fun _ => ?_) fun _ => ?_
  · exact Keeps.bind (h.update fun ctrl => ctrl.reports_handleMultiError _) fun _ => Keeps.pure _
  refine Keeps.bind (Keeps.ite (fun _ => h.checkResult _) fun _ => Keeps.pure _) fun _ => ?_
  refine Keeps.ite (fun _ => Keeps.pure _) fun _ => ?_
  refine Keeps.bind (h.curlPerform hloop) fun _ => ?_
  refine Keeps.ite (fun _ => Keeps.pure _) fun _ => Keeps.ite (fun _ => ?_) fun _ => Keeps.pure _
  refine Keeps.bind (Keeps.read _) fun platform => ?_
  cases c.effective platform with
  | some url => exact Keeps.pure url
  | none => exact Keeps.inside

/-- What an invariant needs beyond `curlPerform` is that unpausing keeps it. -/
theorem readMethod (h : Steady I ok) {r : BodyCall} (hresume : Keeps I (resumeReceiving r.pause))
    (hloop : r.loop.All ok) : Keeps I (Transfer.receive r) := by
  refine Keeps.bind hresume fun result => ?_
  refine Keeps.ite (fun _ => ?_) fun _ => Keeps.ite (fun _ => Keeps.read _) fun _ => ?_
  · exact Keeps.bind (h.update fun ctrl => ctrl.reports_handleEasyError _) fun _ => Keeps.pure _
  refine Keeps.bind (h.curlPerform hloop) fun ended => Keeps.bind (Keeps.read _) fun _ => ?_
  exact Keeps.ite (fun _ => Keeps.pure _) fun _ => Keeps.read _

theorem writeMethod (h : Steady I ok) {w : BodyCall} (hresume : Keeps I (resumeSending w.pause))
    (hloop : w.loop.All ok) : Keeps I (Transfer.send w) := by
  refine Keeps.bind hresume fun result => ?_
  refine Keeps.ite (fun _ => h.update fun ctrl => ctrl.reports_handleEasyError _) fun _ => ?_
  refine Keeps.ite (fun _ => Keeps.pure _) fun _ => Keeps.bind (Keeps.read _) fun _ => ?_
  refine Keeps.ite (fun _ => ?_) fun _ => Keeps.pure _
  exact Keeps.bind (h.curlPerform hloop) fun _ => Keeps.pure _

theorem closeMethod (h : Steady I ok) {c : Close} (hresume : Keeps I (resumeSending c.pause))
    (hloop : c.loop.All ok) : Keeps I (Transfer.finish c) := by
  refine Keeps.bind hresume fun result => ?_
  refine Keeps.ite (fun _ => h.update fun ctrl => ctrl.reports_handleEasyError _) fun _ => ?_
  refine Keeps.bind (Keeps.read _) fun _ => Keeps.ite (fun _ => Keeps.pure _) fun _ => ?_
  exact Keeps.bind (h.curlPerform hloop) fun _ => Keeps.pure _

/-- Unpausing keeps an invariant if clearing the bits and the flag does. -/
theorem resume (h : Steady I ok) {flag : StateBits → Bool} {clear : CurlData → CurlData}
    {pause : Pause} (hok : pause.All ok)
    (hclear : ∀ t, I t → I { t.modify clear with curl := t.curl.unpause }) :
    Keeps I (resume flag clear pause) := by
  refine Keeps.bind (Keeps.read _) fun _ => Keeps.ite (fun _ => ?_) fun _ => Keeps.pure _
  refine Triple.bind (Q := fun _ t => I { t with curl := t.curl.unpause })
    (Triple.update fun t ht => hclear t ht) fun _ => ?_
  exact Triple.call (fun _ _ ht _ => h.invokeAll _ hok ht) fun _ ht => h.invokeAll _ hok ht

end Transfer.Steady

/-- A call that does not get the lock changes nothing but the pending exception. -/
theorem Call.run_taken (call : Call) {t : Transfer} (h : t.ctrl.busy = true) :
    ∃ returned, call.run t =
      ({ t with ctrl := { t.ctrl with env := ⟨some threadingException⟩ } }, some returned) := by
  cases call using Call.cases_run with
  | nativeConfigure c => exact ⟨_, Transfer.acquire_taken h⟩
  | read r => exact ⟨_, Transfer.acquire_taken h⟩
  | write w => exact ⟨_, Transfer.acquire_taken h⟩
  | closeOutput c => exact ⟨_, Transfer.acquire_taken h⟩
  | reset => exact ⟨_, Transfer.acquire_taken h⟩
  | headers call failure method hrun hframed =>
    rw [hrun]
    exact ⟨_, Transfer.acquire_taken h⟩

/-- Callbacks of any kind. -/
theorem Call.all_true (call : Call) : call.All fun _ => True := by
  cases call with
  | nativeConfigure c => exact ⟨fun _ _ => trivial, fun _ _ _ _ => trivial⟩
  | read r => exact ⟨fun _ _ => trivial, fun _ _ _ _ => trivial⟩
  | write w => exact ⟨fun _ _ => trivial, fun _ _ _ _ => trivial⟩
  | closeOutput c => exact ⟨fun _ _ => trivial, fun _ _ _ _ => trivial⟩
  | _ => trivial

namespace Transfer

/-- What carries a property through a method that has the lock, from where its arguments
are stored: `curlPerform`, unpausing, and the last lines. -/
structure Carries (I : Transfer → Prop) (ok : Callback → Prop) : Prop extends Steady I ok where
  resumeReceiving : ∀ t, I t → I { t.modify (·.setRecvPaused false) with curl := t.curl.unpause }
  resumeSending : ∀ t, I t → I { t.modify (·.setSendPaused false) with curl := t.curl.unpause }
  needInput : ∀ t, I t → I (t.modify (·.setNeedInput false))
  needOutput : ∀ t, I t → I (t.modify (·.setNeedOutput false))
  release : ∀ t, I t → I (t.modify fun ctrl => { ctrl with busy := false })

namespace Carries
open Program
variable {I : Transfer → Prop} {ok : Callback → Prop} {t : Transfer}

/-- The last lines of a method. -/
theorem leave (h : Carries I ok) {α : Type} {f : CurlData → CurlData} {last : Program Transfer α}
    (hf : ∀ t, I t → I (t.modify f)) (hlast : Keeps I last) :
    Keeps I (do Transfer.update f; Transfer.release; last) :=
  Keeps.bind (Keeps.update hf) fun _ => Keeps.bind (Keeps.update h.release) fun _ => hlast

theorem nativeConfigure (h : Carries I ok) {c : Configure} (hok : (Call.nativeConfigure c).All ok)
    (hbusy : t.ctrl.busy = false)
    (hfailed : c.urlBufferOk = false → I ((t.entered.modify (·.beginConfigure)).modify (·.oomThrow)))
    (hattach : c.urlBufferOk = true → I (c.attach (t.entered.modify (·.beginConfigure)))) :
    I (Transfer.nativeConfigure c t).1 := by
  have hlast : ∀ url, Keeps I (do
      Transfer.release
      pure (.chars (some url) : Returned)) := fun _ =>
    Keeps.bind (Keeps.update h.release) fun _ => Keeps.pure _
  have hbody := configureBody_eq c t.entered
  rw [Transfer.nativeConfigure, acquire_free hbusy, bind_apply, hbody]
  cases hurl : c.urlBufferOk with
  | false =>
    rw [if_pos rfl]
    exact keeps_iff.mp (hlast _) _ (hfailed hurl)
  | true =>
    rw [if_neg (by decide)]
    exact keeps_iff.mp (Keeps.bind (h.configureMethod hok.1 hok.2) hlast) _ (hattach hurl)

theorem read (h : Carries I ok) {r : BodyCall} (hok : (Call.read r).All ok)
    (hbusy : t.ctrl.busy = false) (hbegin : I (t.entered.modify (·.beginRead r))) :
    I (Transfer.read r t).1 := by
  have hreceive := h.readMethod (h.resume hok.1 h.resumeReceiving) hok.2
  rw [Transfer.read, acquire_free hbusy]
  exact keeps_iff.mp (Keeps.bind hreceive fun _ => h.leave h.needInput (Keeps.pure _)) _ hbegin

theorem writeOpen (h : Carries I ok) {w : BodyCall} (hok : (Call.write w).All ok)
    (hbegin : I (t.entered.modify (·.beginWrite w))) : I (Transfer.writeOpen w t.entered).1 := by
  have hsend := h.writeMethod (h.resume hok.1 h.resumeSending) hok.2
  exact keeps_iff.mp (Keeps.bind hsend fun _ => h.leave h.needOutput <|
    Keeps.bind (Keeps.read _) fun _ => Keeps.pure _) _ hbegin

theorem closeOutput (h : Carries I ok) {c : Close} (hok : (Call.closeOutput c).All ok)
    (hbusy : t.ctrl.busy = false) (hbegin : I (t.entered.modify (·.beginClose)).setEof) :
    I (Transfer.closeOutput c t).1 := by
  have hfinish := h.closeMethod (h.resume hok.1 h.resumeSending) hok.2
  have hlast : Keeps I (do
      Transfer.update (·.setNeedOutput false)
      Transfer.release
      pure (.void : Returned)) := h.leave h.needOutput (Keeps.pure _)
  have hclosed := keeps_iff.mp (Keeps.bind hfinish fun _ => hlast) _ hbegin
  rw [Transfer.closeOutput, acquire_free hbusy]
  exact hclosed

end Carries
/-- What a property needs of the lines that are the methods' own to be kept by every
call: the lock, the arguments stored first, the flags, unpausing, `reset`, and what
the calls for headers may touch. -/
structure Lines (I : Transfer → Prop) (valid : Call → Prop) : Prop where
  lock : ∀ (t : Transfer) (env : JNIEnv) (busy : Bool), I t →
    I { t with ctrl := { t.ctrl with env, busy } }
  wire : ∀ (t : Transfer) (ctrl : CurlData), ctrl.wire = t.ctrl.wire → I t → I { t with ctrl }
  beginConfigure : ∀ t c, valid (.nativeConfigure c) → I t → I (t.modify (·.beginConfigure))
  attach : ∀ t c, valid (.nativeConfigure c) → I t → I (Configure.attach c t)
  beginRead : ∀ t r, valid (.read r) → I t → I (t.modify (·.beginRead r))
  beginWrite : ∀ t w, I t → I (t.modify (·.beginWrite w))
  beginClose : ∀ t, I t → I (t.modify (·.beginClose)).setEof
  needInput : ∀ t, I t → I (t.modify (·.setNeedInput false))
  needOutput : ∀ t, I t → I (t.modify (·.setNeedOutput false))
  resumeReceiving : ∀ t, I t → I { t.modify (·.setRecvPaused false) with curl := t.curl.unpause }
  resumeSending : ∀ t, I t → I { t.modify (·.setSendPaused false) with curl := t.curl.unpause }
  reset : ∀ t, valid .reset → I t → I (t.detach.modify CurlData.reset)

namespace Lines
open Program
variable {I : Transfer → Prop} {ok : Callback → Prop} {valid : Call → Prop}

theorem env (h : Lines I valid) {f : CurlData → CurlData}
    (hf : ∀ ctrl : CurlData, (f ctrl).io = ctrl.io) {t : Transfer} (ht : I t) : I (t.modify f) :=
  h.wire t _ (CurlData.wire_eq_of_io_eq (hf t.ctrl)) ht

theorem carries (h : Lines I valid) (hloop : Invariant I ok) : Carries I ok where
  toSteady := hloop.toSteady
  resumeReceiving := h.resumeReceiving
  resumeSending := h.resumeSending
  needInput := h.needInput
  needOutput := h.needOutput
  release := fun t ht => h.lock t t.ctrl.env false ht

theorem locked (h : Lines I valid) {failure : Returned}
    {method : Transfer → Option (CurlData × Returned)} (hmethod : Framed method) {t : Transfer}
    (hbusy : t.ctrl.busy = false) (ht : I t.entered) : I (Transfer.locked failure method t).1 := by
  rw [Transfer.locked, acquire_free hbusy]
  refine keeps_iff.mp (Keeps.bind (fun t ht => ?_) fun _ =>
    Keeps.bind (Keeps.update fun t ht => h.lock t t.ctrl.env false ht) fun _ => Keeps.pure _) _ ht
  cases hm : method t with
  | none => exact ht
  | some answer => exact h.wire t _ (hmethod t _ _ hm) ht

/-- **Every method keeps what its own lines and `curlPerform` keep**, at every instant. -/
theorem keeps_run (h : Lines I valid) (hloop : Invariant I ok) {call : Call} (hvalid : valid call)
    (hok : call.All ok) : Keeps I call.run := by
  refine keeps_iff.mpr fun t ht => ?_
  have hcarries := h.carries hloop
  have hentered : I t.entered := h.lock t ⟨none⟩ true ht
  cases hbusy : t.ctrl.busy with
  | true =>
    obtain ⟨returned, hrun⟩ := call.run_taken hbusy
    rw [hrun]
    exact h.lock t ⟨some threadingException⟩ t.ctrl.busy ht
  | false =>
    cases call using Call.cases_run with
    | nativeConfigure c =>
      have hbegin := h.beginConfigure _ c hvalid hentered
      exact hcarries.nativeConfigure hok hbusy
        (fun _ => h.env (fun ctrl => ctrl.io_oomThrow) hbegin) fun _ => h.attach _ c hvalid hbegin
    | read r => exact hcarries.read hok hbusy (h.beginRead _ r hvalid hentered)
    | write w =>
      show I (Transfer.write w t).1
      cases hgoal : t.ctrl.goalReached with
      | true =>
        rw [write_closed hbusy hgoal]
        exact h.env (fun ctrl => ctrl.io_throwException (by decide) _ _) hentered
      | false =>
        rw [write_open hbusy hgoal]
        exact hcarries.writeOpen hok (h.beginWrite _ w hentered)
    | closeOutput c => exact hcarries.closeOutput hok hbusy (h.beginClose _ hentered)
    | reset =>
      have hreset := h.reset _ hvalid hentered
      show I (Transfer.reset t).1
      rw [Transfer.reset, acquire_free hbusy]
      exact hcarries.release _ hreset
    | headers call failure method hrun hframed =>
      rw [hrun]
      exact h.locked hframed hbusy hentered

end Lines
end Transfer

end Chttpc
