import Chttpc.CallRules

/-!
# The lock of the handle

Every native method takes `ctrl->busy` and is meant to give it back.  `Lock` is
what a caller can see of this in the handle: the lock itself, the two flags that
say what the method under way needs, and whether the exception for a lock that
is taken is pending.  No callback and no other exception touches any of it
(`Held.invariant`), so a method that has taken the lock holds it until its own
last lines.

The one way out that keeps the lock is in `write`, for an upload whose announced
length has been handed over.  `released_iff` says that this is the only leak: all
methods of a run leave the lock free, and so never meet it taken, exactly when no
`write` is called on a handle that has reached its goal.
-/

namespace Chttpc

structure Lock where
  busy : Bool
  needInput : Bool
  needOutput : Bool
  env : JNIEnv

def CurlData.lock (ctrl : CurlData) : Lock :=
  ⟨ctrl.busy, ctrl.state.needInput, ctrl.state.needOutput, ctrl.env.threading⟩

/-- What a method leaves behind: the lock is free, neither flag is set, and the
call has not failed for want of the lock. -/
structure Released (t : Transfer) : Prop where
  busy : t.ctrl.busy = false
  needInput : t.ctrl.state.needInput = false
  needOutput : t.ctrl.state.needOutput = false
  notRefused : t.ctrl.env.pending ≠ some threadingException

/-- A method has the lock, with its flags set or not. -/
def Held (needInput needOutput : Bool) (t : Transfer) : Prop :=
  t.ctrl.lock = ⟨true, needInput, needOutput, ⟨none⟩⟩

namespace CurlData
variable {ctrl ctrl' : CurlData}

theorem lock_eq_of_wire_eq (h : ctrl'.wire = ctrl.wire) : ctrl'.lock = ctrl.lock := by
  have hbusy : ctrl'.busy = ctrl.busy := congrArg (·.busy) h
  have hin : ctrl'.state.needInput = ctrl.state.needInput := congrArg (·.state.needInput) h
  have hout : ctrl'.state.needOutput = ctrl.state.needOutput := congrArg (·.state.needOutput) h
  have henv : ctrl'.env.threading = ctrl.env.threading := congrArg (·.env) h
  rw [lock, lock, hbusy, hin, hout, henv]

theorem lock_eq_of_io_eq (h : ctrl'.io = ctrl.io) : ctrl'.lock = ctrl.lock :=
  lock_eq_of_wire_eq (wire_eq_of_io_eq h)

@[simp] theorem lock_writeCallback (platform : Platform) (chunk : List UInt8) :
    (ctrl.writeCallback platform chunk).ctrl.lock = ctrl.lock := by
  rw [lock, threading_writeCallback, writeCallback_eq]
  rfl

@[simp] theorem lock_readCallback (platform : Platform) (capacity : Nat) :
    (ctrl.readCallback platform capacity).ctrl.lock = ctrl.lock := by
  rw [lock, threading_readCallback, readCallback_eq]
  rfl

@[simp] theorem lock_eofCallback : ctrl.eofCallback.ctrl.lock = ctrl.lock := rfl

end CurlData

/-- No exception is pending but one for another reason. -/
theorem threading_eq_none_iff {env : JNIEnv} :
    env.threading = ⟨none⟩ ↔ env.pending ≠ some threadingException := by
  unfold JNIEnv.threading
  split
  · rename_i h
    constructor
    · intro hnone
      rw [hnone] at h
      cases h
    · exact fun hne => absurd h hne
  · simp_all

theorem released_iff_lock {t : Transfer} :
    Released t ↔ t.ctrl.lock = ⟨false, false, false, ⟨none⟩⟩ := by
  constructor
  · intro h
    rw [CurlData.lock, h.busy, h.needInput, h.needOutput, threading_eq_none_iff.mpr h.notRefused]
  · intro h
    rw [CurlData.lock, Lock.mk.injEq] at h
    exact ⟨h.1, h.2.1, h.2.2.1, threading_eq_none_iff.mp h.2.2.2⟩

/-! ## Holding the lock -/

namespace Held
open Program Transfer
variable {i o : Bool}

/-- **A method that has the lock keeps it** through `curlPerform`. -/
protected theorem invariant (i o : Bool) : Invariant (Held i o) fun _ => True where
  io := fun t ctrl hio h => (CurlData.lock_eq_of_io_eq hio).trans h
  receive := fun _ _ _ _ h => (CurlData.lock_writeCallback _ _).trans h
  send := by
    intro t capacity _ _ h
    unfold Held sendChunk
    dsimp only
    split
    · exact CurlData.lock_readCallback _ _ |>.trans h
    · exact h
  wait := fun _ _ h => h

theorem resume {flag : StateBits → Bool} {clear : CurlData → CurlData} (pause : Pause)
    (hclear : ∀ ctrl : CurlData, (clear ctrl).lock = ctrl.lock) :
    Keeps (Held i o) (resume flag clear pause) :=
  (Held.invariant i o).resume (fun _ _ => trivial) fun t ht => (hclear t.ctrl).trans ht

theorem attach (c : Configure) {t : Transfer} (h : Held i o t) : Held i o (c.attach t) := by
  unfold Configure.attach
  dsimp only
  split
  · exact h
  · exact h

theorem configureBody (c : Configure) : Keeps (Held i o) (configureBody c) := by
  have hinv := Held.invariant i o
  refine Keeps.bind (Keeps.update fun _ h => h) fun _ => Keeps.ite (fun _ => ?_) fun _ => ?_
  · exact Keeps.bind (hinv.update fun ctrl => ctrl.reports_oomThrow) fun _ => Keeps.pure _
  · exact Keeps.bind (Keeps.update fun _ h => attach c h) fun _ =>
      hinv.configureMethod (fun _ _ => trivial) fun _ _ _ _ => trivial

end Held

/-! ## Methods -/

section Methods
open Program Transfer

/-- The method starts with a free lock and leaves a free lock. -/
def Frees (method : Program Transfer Returned) : Prop :=
  Triple Released method (fun _ => Released) fun _ => True

theorem update_lock {f : CurlData → CurlData} {l : Lock} (g : Lock → Lock)
    (h : ∀ ctrl : CurlData, (f ctrl).lock = g ctrl.lock) :
    Triple (fun t => t.ctrl.lock = l) (Transfer.update f) (fun _ t => t.ctrl.lock = g l)
      fun _ => True :=
  Triple.update fun t ht => (h t.ctrl).trans (congrArg g ht)

theorem Released.entered {t : Transfer} (h : Released t) : Held false false t.entered := by
  show Lock.mk true t.ctrl.state.needInput t.ctrl.state.needOutput ⟨none⟩ = _
  rw [h.needInput, h.needOutput]

theorem Frees.acquire {failure : Returned} {method : Program Transfer Returned}
    (h : Triple (Held false false) method (fun _ => Released) fun _ => True) :
    Frees (Transfer.acquire failure method) := by
  intro t ht
  rw [acquire_free ht.busy]
  exact h _ ht.entered

theorem release_spec :
    Triple (Held false false) release (fun _ => Released) fun _ => True :=
  (update_lock (fun l => { l with busy := false }) fun _ => rfl).weaken (fun _ => id)
    (fun _ _ => released_iff_lock.mpr) fun _ => id

/-- A method whose last lines give the lock back. -/
theorem Frees.of_body {α : Type} {failure : Returned} {body : Program Transfer α}
    {last : α → Program Transfer Returned}
    (h : Triple (Held false false) body (fun _ => Held false false) fun _ => True)
    (hlast : ∀ a, Keeps Released (last a)) :
    Frees (Transfer.acquire failure do
      let a ← body
      release
      last a) :=
  Frees.acquire <| Triple.bind h fun a => Triple.bind release_spec fun _ =>
    (hlast a).weaken (fun _ => id) (fun _ _ => id) fun _ _ => trivial

theorem Frees.locked {failure : Returned} {method : Transfer → Option (CurlData × Returned)}
    (h : ∀ t ctrl result, method t = some (ctrl, result) → ctrl.lock = t.ctrl.lock) :
    Frees (Transfer.locked failure method) := by
  refine Frees.of_body (fun t ht => ?_) fun _ => Keeps.pure _
  cases hm : method t with
  | none => trivial
  | some answer => exact (h t _ _ hm).trans ht

theorem frees_nativeConfigure (c : Configure) : Frees (nativeConfigure c) :=
  Frees.of_body ((Held.configureBody c).weaken (fun _ => id) (fun _ _ => id) fun _ _ => trivial)
    fun _ => Keeps.pure _

theorem lock_reset (ctrl : CurlData) :
    ctrl.reset.lock = { ctrl.lock with needInput := false, needOutput := false } := rfl

theorem frees_reset : Frees Transfer.reset := by
  refine Frees.acquire (Triple.bind (Q := fun _ => Held false false) ?_ fun _ => ?_)
  · refine Triple.update fun t ht => ?_
    unfold Transfer.detach
    split
    · exact ht
    · exact ht
  refine Triple.bind (Q := fun _ => Held false false) ?_ fun _ => ?_
  · exact update_lock (fun l => { l with needInput := false, needOutput := false }) lock_reset
  · exact Triple.bind release_spec fun _ => Triple.pure fun _ ht => ht

theorem setNeedInput_spec {i o : Bool} (need : Bool) :
    Triple (Held i o) (Transfer.update (·.setNeedInput need)) (fun _ => Held need o)
      fun _ => True :=
  update_lock (fun l => { l with needInput := need }) fun _ => rfl

theorem setNeedOutput_spec {i o : Bool} (need : Bool) :
    Triple (Held i o) (Transfer.update (·.setNeedOutput need)) (fun _ => Held i need)
      fun _ => True :=
  update_lock (fun l => { l with needOutput := need }) fun _ => rfl

/-! ### `read`, `write` and `closeOutput` -/

/-- The arguments are stored and a flag is set, and the rest keeps what it finds. -/
theorem body_spec {α : Type} {i o : Bool} {begin : CurlData → CurlData}
    {rest : Program Transfer α} (g : Lock → Lock)
    (hg : ∀ ctrl : CurlData, (begin ctrl).lock = g ctrl.lock)
    (hflags : g ⟨true, false, false, ⟨none⟩⟩ = ⟨true, i, o, ⟨none⟩⟩) (hrest : Keeps (Held i o) rest) :
    Triple (Held false false) (do Transfer.update begin; rest) (fun _ => Held i o)
      fun _ => True := by
  refine Triple.bind (Q := fun _ => Held i o) ?_ fun _ => ?_
  · have h := update_lock (l := ⟨true, false, false, ⟨none⟩⟩) g hg
    rw [hflags] at h
    exact h
  · exact hrest.weaken (fun _ => id) (fun _ _ => id) fun _ _ => trivial

theorem readBody_spec (r : BodyCall) :
    Triple (Held false false) (readBody r) (fun _ => Held true false) fun _ => True :=
  body_spec (fun l => { l with needInput := true }) (fun _ => rfl) rfl <|
    (Held.invariant true false).readMethod (Held.resume r.pause fun _ => rfl) fun _ _ _ _ => trivial

theorem frees_read (r : BodyCall) : Frees (Transfer.read r) := by
  refine Frees.acquire (Triple.bind (readBody_spec r) fun retVal => ?_)
  refine Triple.bind (setNeedInput_spec false) fun _ => ?_
  exact Triple.bind release_spec fun _ => Triple.pure fun _ ht => ht

theorem writeBody_spec (w : BodyCall) :
    Triple (Held false false) (writeBody w) (fun _ => Held false true) fun _ => True :=
  body_spec (fun l => { l with needOutput := true }) (fun _ => rfl) rfl <|
    (Held.invariant false true).writeMethod (Held.resume w.pause fun _ => rfl) fun _ _ _ _ => trivial

/-- A `write` below the goal gives the lock back. -/
theorem write_spec (w : BodyCall) :
    Triple (fun t => Released t ∧ t.ctrl.goalReached = false) (Transfer.write w)
      (fun _ => Released) fun _ => True := by
  intro t ⟨ht, hgoal⟩
  rw [write_open ht.busy hgoal]
  refine Triple.bind (P := Held false false) (writeBody_spec w) (fun _ => ?_) t.entered ht.entered
  refine Triple.bind (setNeedOutput_spec false) fun _ => Triple.bind release_spec fun _ => ?_
  exact (Keeps.bind (Keeps.read _) fun _ => Keeps.pure _).weaken (fun _ => id) (fun _ _ => id)
    fun _ _ => trivial

theorem closeBody_spec (c : Close) :
    Triple (Held false false) (closeBody c) (fun _ => Held false true) fun _ => True := by
  refine body_spec (fun l => { l with needOutput := true }) (fun _ => rfl) rfl ?_
  refine Keeps.bind (Keeps.update fun _ ht => ht) fun _ => ?_
  exact (Held.invariant false true).closeMethod (Held.resume c.pause fun _ => rfl)
    fun _ _ _ _ => trivial

theorem frees_closeOutput (c : Close) : Frees (Transfer.closeOutput c) := by
  refine Frees.acquire (Triple.bind (closeBody_spec c) fun _ => ?_)
  refine Triple.bind (setNeedOutput_spec false) fun _ => ?_
  exact Triple.bind release_spec fun _ => Triple.pure fun _ ht => ht

/-- **Every method gives the lock back**, except for `write`, which does so below
the goal. -/
theorem triple_run (call : Call) :
    Triple (fun t => Released t ∧ ∀ w, call = .write w → t.ctrl.goalReached = false) call.run
      (fun _ => Released) fun _ => True := by
  have hfrees : ∀ {method : Program Transfer Returned}, Frees method →
      Triple (fun t => Released t ∧ ∀ w, call = .write w → t.ctrl.goalReached = false) method
        (fun _ => Released) fun _ => True :=
    fun h => h.weaken (fun _ ht => ht.1) (fun _ _ => id) fun _ => id
  cases call using Call.cases_run with
  | nativeConfigure c => exact hfrees (frees_nativeConfigure c)
  | read r => exact hfrees (frees_read r)
  | write w => exact (write_spec w).weaken (fun _ ht => ⟨ht.1, ht.2 w rfl⟩) (fun _ _ => id) fun _ => id
  | closeOutput c => exact hfrees (frees_closeOutput c)
  | reset => exact hfrees frees_reset
  | headers call failure method hrun hframed =>
    rw [hrun]
    exact hfrees <| Frees.locked fun t ctrl result h =>
      CurlData.lock_eq_of_wire_eq (hframed t ctrl result h)

end Methods

/-! ## Runs -/

theorem released_fresh (platform : Platform) (rodata : Nat → UInt8) :
    Released (.fresh platform rodata) := ⟨rfl, rfl, rfl, by simp [Transfer.fresh, nativeCreate]⟩

/-- After any calls the handle is released, or the lock is taken for good. -/
theorem released_or_taken {t₀ t : Transfer} (h₀ : Released t₀) {calls : List Call}
    (hrun : runCalls calls t₀ = (t, some ())) : Released t ∨ t.ctrl.busy = true := by
  have hcall : ∀ call : Call, Program.Triple (fun t => Released t ∨ t.ctrl.busy = true) call.run
      (fun _ t => Released t ∨ t.ctrl.busy = true) fun _ => True := by
    intro call t ht
    rcases ht with ht | ht
    · by_cases hgoal : ∀ w, call = .write w → t.ctrl.goalReached = false
      · have hspec := triple_run call t ⟨ht, hgoal⟩
        rcases hcall : call.run t with ⟨t', _ | returned⟩
        · trivial
        · rw [hcall] at hspec
          exact .inl hspec
      · obtain ⟨w, hw⟩ := Classical.not_forall.mp hgoal
        obtain ⟨rfl, hw⟩ := Classical.not_imp.mp hw
        have hclosed : t.ctrl.goalReached = true := by simpa using hw
        rw [Call.run, Transfer.write_closed ht.busy hclosed]
        exact .inr rfl
    · obtain ⟨returned, hcall⟩ := call.run_taken ht
      rw [hcall]
      exact .inr ht
  have hcalls := Program.Triple.forEach fun call (_ : call ∈ calls) => hcall call
  have h := hcalls t₀ (.inl h₀)
  rw [show Program.forEach Call.run calls t₀ = _ from hrun] at h
  exact h

/-- From a released handle, the lock is never leaked exactly when no `write` goes
beyond the goal. -/
theorem released_throughout_iff {t₀ : Transfer} (h₀ : Released t₀) (calls : List Call) :
    (∀ before, before <+: calls →
        ∀ t, runCalls before t₀ = (t, some ()) → Released t) ↔
      ∀ before w, before ++ [.write w] <+: calls →
        ∀ t, runCalls before t₀ = (t, some ()) → t.ctrl.goalReached = false := by
  have hiff := Program.forEach_throughout_iff (f := Call.run) (P := Released) (I := Released)
    (C := fun t call => ∀ w, call = .write w → t.ctrl.goalReached = false) (fun _ => id)
    ?_ ?_ calls _ h₀
  · refine hiff.trans ⟨fun h before w hpre t ht => h before _ hpre t ht w rfl, ?_⟩
    rintro h before call hpre t ht w rfl
    exact h before w hpre t ht
  · intro t call ht hcall t' returned hrun
    have hspec := triple_run call t ⟨ht, hcall⟩
    rw [hrun] at hspec
    exact hspec
  · intro t call ht hnot
    obtain ⟨w, hnot⟩ := Classical.not_forall.mp hnot
    obtain ⟨rfl, hgoal⟩ := Classical.not_imp.mp hnot
    rw [Bool.not_eq_false] at hgoal
    refine ⟨_, _, Transfer.write_closed ht.busy hgoal, fun h => ?_⟩
    cases h.busy

/-- **The lock is never leaked exactly when no `write` goes beyond the goal.**
After any calls that have returned, the lock is free, the flags are clear and the
last call was not refused, if and only if no `write` has been called on a handle
whose upload has reached its goal. -/
theorem released_iff (platform : Platform) (rodata : Nat → UInt8) (calls : List Call) :
    (∀ before, before <+: calls →
        ∀ t, runCalls before (.fresh platform rodata) = (t, some ()) → Released t) ↔
      ∀ before w, before ++ [.write w] <+: calls →
        ∀ t, runCalls before (.fresh platform rodata) = (t, some ()) →
          t.ctrl.goalReached = false :=
  released_throughout_iff (released_fresh platform rodata) calls

/-- `nativeConfigure` leaves a released handle, if none is under way. -/
theorem Transfer.Detached.released {t t' : Transfer} (h : t.Detached) {c : Configure}
    {returned : Returned} (hrun : Transfer.nativeConfigure c t = (t', some returned)) :
    Released t' := by
  have hclear : Released (t.modify fun ctrl => { ctrl with env := ⟨none⟩ }) :=
    ⟨h.busy, congrArg StateBits.needInput h.state, congrArg StateBits.needOutput h.state,
      fun hpending => nomatch hpending⟩
  have hfrees := frees_nativeConfigure c _ hclear
  -- the exception that is pending before a call is gone when the call begins
  have hsame : Transfer.nativeConfigure c (t.modify fun ctrl => { ctrl with env := ⟨none⟩ }) =
      Transfer.nativeConfigure c t := rfl
  rw [hsame, hrun] at hfrees
  exact hfrees

/-- A configuration of an upload of `length` bytes: libcurl asks for data before
there is any. -/
def configureUpload (length : Int) : Configure where
  fixedLength := length
  url := []
  urlLength := 0
  readTimeout := 0
  connTimeout := 0
  followRedirects := false
  doInput := true
  doOutput := true
  response := []
  urlBufferOk := true
  interrupted := false
  perform := ⟨[.upload 16], some (.ok, 1)⟩
  messages := []
  loop := ⟨⟨0, 0⟩, [quietIteration []]⟩
  effectiveUrl := none
  newArrayOk := true

/-- A `write` of three bytes, which libcurl takes at once. -/
def writeThree : BodyCall where
  buf := some [1, 2, 3]
  off := 0
  count := 3
  pause := ⟨[], some .ok⟩
  interrupted := false
  loop := ⟨⟨0, 0⟩, [quietIteration [.upload 16]]⟩
  interruptedAgain := false

/-- An upload of three bytes, and three bytes more. -/
def overfullUpload : List Call :=
  [.nativeConfigure (configureUpload 3), .write writeThree, .write writeThree]

/-- The second `write` leaves the lock taken, and the next call is refused. -/
theorem not_released_overfullUpload :
    (¬ ∀ before, before <+: overfullUpload → ∀ t,
      runCalls before (.fresh latinPlatform fun _ => 0) = (t, some ()) → Released t) ∧
    (runCalls (overfullUpload ++ [.closeOutput ⟨⟨[], some .ok⟩, ⟨⟨0, 0⟩, []⟩⟩])
      (.fresh latinPlatform fun _ => 0)).1.ctrl.env.pending = some threadingException := by
  refine ⟨fun h => ?_, rfl⟩
  cases (h overfullUpload (List.prefix_refl _) _ rfl).busy

end Chttpc
