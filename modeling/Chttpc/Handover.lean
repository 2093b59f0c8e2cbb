import Chttpc.Streams
import Chttpc.Upload

/-!
# What a `write` hands over

Each time libcurl asks for data it offers a buffer, and `read_callback` fills it as far as the
bytes of the `write` go.  So it is the room in these buffers that says how much of the `write`
is left: `Metered` keeps the account, from one callback to the next, and what an iteration
does behind its callbacks does not change it (`iterate_settled`).
-/

namespace Chttpc
open Program

/-! ## The callbacks of a call -/

/-- The room a callback offers for the upload. -/
def Callback.capacity : Callback → Nat
  | .upload capacity => capacity
  | _ => 0

def capacity (callbacks : List Callback) : Nat := (callbacks.map Callback.capacity).sum

theorem capacity_cons (callback : Callback) (callbacks : List Callback) :
    capacity (callback :: callbacks) = callback.capacity + capacity callbacks := by
  simp [capacity]

/-- The room that the callbacks offer, if libcurl asks for data at all. -/
def Transfer.room (t : Transfer) (callbacks : List Callback) : Nat :=
  if t.accepts then capacity callbacks else 0

/-- The callbacks libcurl makes in an iteration. -/
def Transfer.madeIn (it : Iteration) : List Callback :=
  if it.interrupted then [] else it.perform.callbacks

/-- The handle of a `write`, when its arguments are stored. -/
def BodyCall.writing (w : BodyCall) (t : Transfer) : Transfer :=
  t.entered.modify (·.beginWrite w)

/-! ## What comes behind the callbacks -/

/-- The state differs in nothing that a transfer depends on. -/
def Settled (t t' : Transfer) : Prop :=
  ∃ ctrl waits, ctrl.io = t.ctrl.io ∧ t' = { t with ctrl, waits }

theorem settled_refl (t : Transfer) : Settled t t := ⟨t.ctrl, t.waits, rfl, rfl⟩

/-- Without callbacks nothing moves. -/
theorem settled_invariant (t : Transfer) :
    Transfer.Invariant (Settled t) fun _ => False where
  io := by
    rintro _ ctrl hio ⟨ctrl', waits, hio', rfl⟩
    exact ⟨ctrl, waits, hio.trans hio', rfl⟩
  receive := fun _ _ hok => hok.elim
  send := fun _ _ hok => hok.elim
  wait := by
    rintro _ - ⟨ctrl, waits, hio, rfl⟩
    exact ⟨ctrl, _, hio, rfl⟩

/-- **An iteration is its callbacks**: what comes behind them moves nothing. -/
theorem iterate_settled (it : Iteration) (timer : Timer) (t : Transfer) :
    Settled (t.invokeAll (Transfer.madeIn it)) (Transfer.iterate it timer t).1 := by
  by_cases hinterrupted : it.interrupted = true
  · have hrun : Transfer.iterate it timer t = (t, some (.stop false)) := by
      show (if it.interrupted = true then _ else _ : Program Transfer Flow) t = _
      rw [if_pos hinterrupted]
      rfl
    rw [hrun, Transfer.madeIn, if_pos hinterrupted]
    exact settled_refl t
  rw [Transfer.madeIn, if_neg hinterrupted]
  have hsettled := settled_invariant (t.invokeAll it.perform.callbacks)
  generalize hafter : t.invokeAll it.perform.callbacks = s at hsettled ⊢
  -- from `curl_multi_perform` on, the program keeps `Settled s`
  have hrest : Triple (· = t) (Transfer.iterate it timer) (fun _ => Settled s) (Settled s) := by
    unfold Transfer.iterate
    rw [if_neg hinterrupted]
    refine Triple.bind (Q := fun _ => Settled s) (Triple.call ?_ ?_) fun answer => ?_
    · rintro _ _ rfl -
      rw [hafter]
      exact settled_refl s
    · rintro _ rfl
      rw [hafter]
      exact settled_refl s
    refine Keeps.ite (fun _ => ?_) fun _ => ?_
    · exact Keeps.bind (hsettled.update fun ctrl => ctrl.reports_handleMultiError _)
        fun _ => Keeps.pure _
    refine Keeps.bind (hsettled.checkResult it.messages) fun completed => ?_
    refine Keeps.ite (fun _ => Keeps.pure _) fun _ => ?_
    refine Triple.bind (Q := fun bails t => t.ctrl.bails t.rodata = bails ∧ Settled s t)
      (Triple.read fun _ ht => ⟨rfl, ht⟩) fun bails => ?_
    refine Triple.ite (fun _ => Triple.pure fun _ ht => ht.2) fun hbails => ?_
    refine Triple.ite (fun _ => Triple.pure fun _ ht => ht.2) fun _ => ?_
    refine Triple.ite (fun _ => Triple.pure fun _ ht => ht.2) fun _ => ?_
    rw [Bool.not_eq_true] at hbails
    subst hbails
    exact hsettled.await it timer
  have hat := hrest t rfl
  split at hat
  · rename_i hrun
    rw [hrun]
    exact hat
  · rename_i hrun
    rw [hrun]
    exact hat

/-! ## The bytes handed over -/

/-- libcurl goes on asking for data, or it goes on not asking. -/
theorem accepts_invariant (accepting : Bool) :
    Transfer.Invariant (fun t => t.accepts = accepting) fun _ => True where
  io := by
    intro t ctrl hio h
    have hdone : ctrl.state.doneSending = t.ctrl.state.doneSending :=
      congrArg (·.state.doneSending) hio
    unfold Transfer.accepts at h ⊢
    dsimp only
    rw [hdone]
    exact h
  receive := by
    intro t n _ _ h
    unfold Transfer.accepts Transfer.receiveChunk at *
    dsimp only
    rw [Libcurl.afterWrite_eq, CurlData.writeCallback_eq]
    exact h
  send := by
    intro t capacity _ _ h
    unfold Transfer.accepts Transfer.sendChunk at *
    dsimp only
    rw [Libcurl.afterRead_eq]
    split
    · rw [CurlData.readCallback_eq]
      exact h
    · exact h
  wait := fun _ _ h => h

/-- A `write` under way: what it has handed over is the beginning of its region, and so much
of it is left. -/
structure Metered (w : BodyCall) (before : List UInt8) (accepting : Bool) (left : Int)
    (t : Transfer) : Prop where
  accepts : t.accepts = accepting
  left : t.ctrl.countToWrite = left
  handed : ∃ bytes, t.curl.uploaded = before ++ bytes ∧ w.Fed bytes t.ctrl

/-- What is left once there has been room for so much. -/
def leftBehind (left : Int) (room : Nat) : Int := max 0 (left - room)

theorem leftBehind_zero {left : Int} (h : 0 ≤ left) : leftBehind left 0 = left := by
  unfold leftBehind
  omega

theorem leftBehind_add (left : Int) (first rest : Nat) :
    leftBehind (leftBehind left first) rest = leftBehind left (first + rest) := by
  unfold leftBehind
  omega

namespace Metered
variable {w : BodyCall} {before : List UInt8} {accepting : Bool} {left : Int} {t t' : Transfer}

theorem nonneg (hw : w.InRange) (h : Metered w before accepting left t) : 0 ≤ left := by
  obtain ⟨bytes, -, hfed⟩ := h.handed
  have hle := hfed.length_le hw
  have hcount := hfed.2.1
  have hleft := h.left
  omega

theorem settled (hw : w.InRange) (hsettled : Settled t t') (h : Metered w before accepting left t) :
    Metered w before accepting left t' := by
  obtain ⟨ctrl, waits, hio, rfl⟩ := hsettled
  obtain ⟨bytes, huploaded, hfed⟩ := h.handed
  have hctrl : ctrl.io.outgoing = t.ctrl.io.outgoing := congrArg CurlData.outgoing hio
  have hcount : ctrl.countToWrite = t.ctrl.countToWrite := congrArg (·.countToWrite) hio
  exact ⟨(accepts_invariant accepting).io t ctrl hio h.accepts, hcount.trans h.left, bytes,
    huploaded, hw.supply.of_eq hfed hctrl⟩

theorem upload (hw : w.InRange) {n : Nat} (hn : Callback.Sized (.upload n))
    (hattached : t.curl.attached = true) (h : Metered w before accepting left t) :
    Metered w before accepting (leftBehind left (if accepting then n else 0)) (t.sendChunk n) := by
  have haccepts := (accepts_invariant accepting).send t n trivial hattached h.accepts
  have hnonneg := h.nonneg hw
  have hleft := h.left
  obtain ⟨bytes, huploaded, hfed⟩ := h.handed
  rcases t.sendChunk_spec hattached (hfed.stock hw) hn.1 hn.2 with
    ⟨hctrl, huploaded', -, hnone, -⟩ | ⟨hasks, -, bytes', access, huploaded', -, hmin, -, hsent⟩
  · -- nothing is handed over: libcurl does not ask for data, or there is none left
    refine ⟨haccepts, ?_, bytes, huploaded'.trans huploaded, ?_⟩
    · rw [hctrl]
      show t.ctrl.countToWrite = _
      cases accepting with
      | false => exact hleft.trans (leftBehind_zero hnonneg).symm
      | true =>
        have hdone := hnone h.accepts
        unfold leftBehind
        rw [if_pos rfl]
        omega
    · rw [hctrl]
      exact hw.supply.of_eq hfed rfl
  · have haccepting : accepting = true := h.accepts.symm.trans hasks
    subst haccepting
    have hafter := hsent.countToWrite
    refine ⟨haccepts, ?_, bytes ++ bytes', ?_, (hfed.sent hw hsent).1⟩
    · unfold leftBehind
      rw [if_pos rfl]
      omega
    · rw [huploaded', huploaded, List.append_assoc]

/-- **A callback takes the room that it offers off what is left.** -/
theorem invoke (hw : w.InRange) {callback : Callback} (hok : callback.Sized)
    (h : Metered w before accepting left t) :
    Metered w before accepting (leftBehind left (if accepting then callback.capacity else 0))
      (t.invoke callback) := by
  have hsame {t' : Transfer} (hcapacity : callback.capacity = 0)
      (h : Metered w before accepting left t') :
      Metered w before accepting (leftBehind left (if accepting then callback.capacity else 0))
        t' := by
    rw [hcapacity, ite_self, leftBehind_zero (h.nonneg hw)]
    exact h
  unfold Transfer.invoke
  cases hattached : t.curl.attached with
  | false =>
    have haccepting : accepting = false := by
      rw [← h.accepts, Transfer.accepts, hattached]
      rfl
    subst haccepting
    rw [if_neg Bool.false_ne_true, if_neg Bool.false_ne_true, leftBehind_zero (h.nonneg hw)]
    exact h
  | true =>
    rw [if_pos rfl]
    cases callback with
    | header line =>
      exact hsame rfl (h.settled hw ⟨_, _, CurlData.io_headerCallback _ line, rfl⟩)
    | errorText text =>
      exact hsame rfl (h.settled hw ⟨{ t.ctrl with errorBuffer := text }, t.waits, rfl, rfl⟩)
    | upload n => exact h.upload hw hok hattached
    | body n =>
      have hreceive : Metered w before accepting left (t.receiveChunk n) := by
        obtain ⟨bytes, huploaded, hfed⟩ := h.handed
        refine ⟨(accepts_invariant accepting).receive t n trivial hattached h.accepts, ?_, bytes,
          ?_, ?_⟩
        · show (CurlData.writeCallback _ _ _).ctrl.countToWrite = _
          rw [CurlData.writeCallback_eq]
          exact h.left
        · show (Libcurl.afterWrite _ _ _).uploaded = _
          rw [Libcurl.afterWrite_eq]
          exact huploaded
        · show w.Fed bytes (CurlData.writeCallback _ _ _).ctrl
          rw [CurlData.writeCallback_eq]
          exact hw.supply.of_eq hfed rfl
      unfold Transfer.handle
      dsimp only
      cases t.curl.writeFunction with
      | writeCallback => exact hsame rfl hreceive
      | skipReceiveCallback => exact hsame rfl h
      | abortReceiveCallback => exact hsame rfl h

theorem invokeAll (hw : w.InRange) (callbacks : List Callback)
    (hok : ∀ callback ∈ callbacks, callback.Sized) (h : Metered w before accepting left t) :
    Metered w before accepting (leftBehind left (t.room callbacks)) (t.invokeAll callbacks) := by
  induction callbacks generalizing left t with
  | nil =>
    rw [Transfer.room, show capacity [] = 0 from rfl, ite_self, leftBehind_zero (h.nonneg hw)]
    exact h
  | cons callback callbacks ih =>
    have hone := h.invoke hw (hok callback List.mem_cons_self)
    have hall := ih (fun c hc => hok c (List.mem_cons_of_mem _ hc)) hone
    have hroom : t.room (callback :: callbacks) =
        (if accepting then callback.capacity else 0) + (t.invoke callback).room callbacks := by
      unfold Transfer.room
      rw [h.accepts, hone.accepts, capacity_cons]
      split
      · rfl
      · rfl
    rw [hroom, ← leftBehind_add]
    exact hall

/-- **An iteration takes the room of its callbacks off what is left.** -/
theorem iterate (hw : w.InRange) {it : Iteration} (timer : Timer)
    (hok : ∀ callback ∈ it.perform.callbacks, callback.Sized)
    (h : Metered w before accepting left t) :
    Metered w before accepting (leftBehind left (t.room (Transfer.madeIn it)))
      (Transfer.iterate it timer t).1 := by
  have hmade : ∀ callback ∈ Transfer.madeIn it, callback.Sized := by
    intro callback hc
    unfold Transfer.madeIn at hc
    split at hc
    · cases hc
    · exact hok callback hc
  exact (h.invokeAll hw _ hmade).settled hw (iterate_settled it timer t)

/-- Nothing is left exactly when all of the region has been handed over. -/
theorem whole_iff (hw : w.InRange) (h : Metered w before accepting left t) :
    t.curl.uploaded = before ++ w.region ↔ left = 0 := by
  obtain ⟨bytes, huploaded, hfed⟩ := h.handed
  have hregion := hw.length_region
  have hbytes : bytes = w.region ↔ bytes.length = w.region.length :=
    ⟨congrArg List.length, hfed.1.eq_of_length⟩
  have hcount := hfed.2.1
  have hleft := h.left
  rw [huploaded, List.append_cancel_left_eq, hbytes]
  omega

/-- A `write` begins with all of its bytes. -/
theorem begins (w : BodyCall) (t : Transfer) :
    Metered w t.curl.uploaded t.accepts w.count (w.writing t) := by
  refine ⟨rfl, rfl, [], (List.append_nil _).symm, List.nil_prefix, (Int.sub_zero w.count).symm,
    rfl, ?_⟩
  cases w.buf with
  | none => exact rfl
  | some buf => exact (Int.add_zero w.off).symm

/-- What unpausing changes does not matter. -/
theorem unpaused (hw : w.InRange) (h : Metered w before accepting left t) :
    Metered w before accepting left
      { t.modify (·.setSendPaused false) with curl := t.curl.unpause } := by
  obtain ⟨bytes, huploaded, hfed⟩ := h.handed
  exact ⟨h.accepts, h.left, bytes, huploaded, hw.supply.of_eq hfed rfl⟩

end Metered
end Chttpc
