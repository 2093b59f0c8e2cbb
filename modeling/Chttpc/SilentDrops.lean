import Chttpc.ReportedFailures

/-!
# What a `write` leaves behind without a word

`doWrite` throws the value of the native method away: it looks at it only to fill in an
`InterruptedIOException`.  So a `write` that throws nothing is taken for one whose bytes have
all been sent.  But the loop has exits that raise nothing: the transfer is complete, no handle
is running any more, the flag of an interruption is set, or a direction is paused.  Behind each
of them libcurl may not have asked for all of the bytes.

`no_silent_drop_iff` says that these exits are all there is.  Whether bytes are left when one
of them is taken is a matter of the room that libcurl has offered in that last iteration.
-/

namespace Chttpc
open Program

/-! ## The exits of the loop -/

/-- The room that libcurl offers for the upload in the pass. -/
def Pass.room (p : Pass) : Nat := p.before.room (Transfer.madeIn p.it)

/-- **The exits of the loop** that raise nothing of their own. -/
inductive Pass.Quits (p : Pass) : Prop
  | interrupted : p.it.interrupted = true → Quits p
  | completed {running : Nat} : p.it.interrupted = false →
      p.it.perform.returns = some (.ok, running) → p.before.completed p.it = true → Quits p
  | bails {running : Nat} : p.it.interrupted = false →
      p.it.perform.returns = some (.ok, running) → p.before.completed p.it = false →
      (p.before.checked p.it).ctrl.bails (p.before.checked p.it).rodata = true → Quits p
  | idle : p.it.interrupted = false → p.it.perform.returns = some (.ok, 0) →
      p.before.completed p.it = false →
      (p.before.checked p.it).ctrl.bails (p.before.checked p.it).rodata = false → Quits p
  | interruptedAgain {running : Nat} : p.it.interrupted = false →
      p.it.perform.returns = some (.ok, running) → p.before.completed p.it = false →
      (p.before.checked p.it).ctrl.bails (p.before.checked p.it).rodata = false → running ≠ 0 →
      p.it.interruptedAgain = true → Quits p

section Exits
variable {p : Pass} {t t' : Transfer} {result : Bool}

/-- A pass that ends the loop without a failure has taken one of them. -/
theorem Pass.quits_of_stop (h : p.run = (t', some (.stop result)))
    (hquiet : ¬ (Attempt.pass p).Fails) : p.Quits := by
  cases Iterated.of_iterate h with
  | interrupted hinterrupted => exact .interrupted hinterrupted
  | multiError hinterrupted hreturns hresult =>
    exact absurd (.perform ((Attempt.answer_pass hinterrupted).trans hreturns) hresult) hquiet
  | completed hinterrupted hreturns hcompleted => exact .completed hinterrupted hreturns hcompleted
  | bails hinterrupted hreturns hcompleted hbails =>
    exact .bails hinterrupted hreturns hcompleted hbails
  | idle hinterrupted hreturns hcompleted hbails =>
    exact .idle hinterrupted hreturns hcompleted hbails
  | interruptedAgain hinterrupted hreturns hcompleted hbails hrunning hagain =>
    exact .interruptedAgain hinterrupted hreturns hcompleted hbails hrunning hagain
  | waits hinterrupted hreturns hcompleted hbails hrunning hagain hawaited =>
    have hwaits : p.Waits := ⟨hinterrupted, ⟨_, hreturns, hrunning⟩, hcompleted, hbails, hagain⟩
    cases hawaited with
    | waitError hpositive hwait hresult =>
      exact absurd (.wait ⟨hwaits, hpositive, _, _, hwait, hresult⟩) hquiet
    | timedOut hpast hevents hleft =>
      refine absurd (.timeout ⟨?_, hevents, hleft⟩) hquiet
      exact ⟨hinterrupted, ⟨_, hreturns, hrunning⟩, hcompleted, hbails, hagain, hpast⟩

/-- They do end it. -/
theorem Pass.Quits.run (h : p.Quits) : ∃ t' result, p.run = (t', some (.stop result)) := by
  -- what the loop does once libcurl has come back without an error
  have hperformed {running : Nat} (hinterrupted : p.it.interrupted = false)
      (hreturns : p.it.perform.returns = some (.ok, running)) :
      p.run = (if p.before.completed p.it then (p.before.checked p.it, some (.stop true))
        else if (p.before.checked p.it).ctrl.bails (p.before.checked p.it).rodata then
          (p.before.checked p.it, some (.stop false))
        else if running = 0 then (p.before.checked p.it, some (.stop true))
        else if p.it.interruptedAgain then (p.before.checked p.it, some (.stop false))
        else Transfer.await p.it p.timer (p.before.checked p.it)) := by
    have hperform : Transfer.curlMultiPerform p.it.perform p.before =
        (p.before.invokeAll p.it.perform.callbacks, some (.ok, running)) := by
      rw [Transfer.curlMultiPerform, hreturns]
      rfl
    rw [Pass.run, Transfer.iterate, if_neg (ne_true_of_eq_false hinterrupted),
      bind_some hperform]
    dsimp only
    rw [if_neg (not_not.mpr rfl), bind_some (show Transfer.checkResult p.it.messages
      (p.before.invokeAll p.it.perform.callbacks) =
        (p.before.checked p.it, some (p.before.completed p.it)) from rfl)]
    split
    · rfl
    rw [bind_some (read_apply _ _)]
    split
    · rfl
    split
    · rfl
    split
    · rfl
    · rfl
  cases h with
  | interrupted hinterrupted =>
    refine ⟨p.before, false, ?_⟩
    rw [Pass.run, Transfer.iterate, if_pos hinterrupted]
    rfl
  | completed hinterrupted hreturns hcompleted =>
    rw [hperformed hinterrupted hreturns, if_pos hcompleted]
    exact ⟨_, _, rfl⟩
  | bails hinterrupted hreturns hcompleted hbails =>
    rw [hperformed hinterrupted hreturns, if_neg (ne_true_of_eq_false hcompleted), if_pos hbails]
    exact ⟨_, _, rfl⟩
  | idle hinterrupted hreturns hcompleted hbails =>
    rw [hperformed hinterrupted hreturns, if_neg (ne_true_of_eq_false hcompleted),
      if_neg (ne_true_of_eq_false hbails), if_pos rfl]
    exact ⟨_, _, rfl⟩
  | interruptedAgain hinterrupted hreturns hcompleted hbails hrunning hagain =>
    rw [hperformed hinterrupted hreturns, if_neg (ne_true_of_eq_false hcompleted),
      if_neg (ne_true_of_eq_false hbails), if_neg hrunning, if_pos hagain]
    exact ⟨_, _, rfl⟩

/-- A pass that ends the loop is what the loop comes to. -/
theorem Transfer.iterateAll_of_stop (iterations : List Iteration) {timer : Timer}
    (hp : p ∈ passes iterations timer t) (hstop : p.run = (t', some (.stop result))) :
    iterateAll iterations timer t = (t', some result) := by
  induction iterations generalizing timer t with
  | nil => cases hp
  | cons it iterations ih =>
    rw [passes] at hp
    rcases List.mem_cons.mp hp with rfl | hp
    · rw [iterateAll, bind_some (show Transfer.iterate it timer t = _ from hstop)]
      rfl
    · split at hp
      · rename_i s timer' hrun
        rw [iterateAll_again hrun]
        exact ih hp
      · cases hp

end Exits

/-! ## What a `write` leaves -/

section Write
variable {w : BodyCall} {t s t' : Transfer} {p : Pass}

/-- The room that libcurl offers while sending is resumed. -/
def BodyCall.roomResuming (w : BodyCall) (t : Transfer) : Nat :=
  if t.ctrl.state.sendPaused then t.room w.pause.callbacks else 0

/-- **A `write` leaves bytes behind** when it takes an exit before libcurl has asked for all
that is left: sending cannot be resumed, the flag of an interruption is set already, or the
loop ends. -/
inductive BodyCall.Leaves (w : BodyCall) (t : Transfer) : Prop
  | refused {code : CURLcode} : t.ctrl.state.sendPaused = true → w.pause.returns = some code →
      code ≠ .ok → w.roomResuming t < w.count → Leaves w t
  | interrupted : (t.ctrl.state.sendPaused = true → w.pause.returns = some .ok) →
      w.interrupted = true → w.roomResuming t < w.count → Leaves w t
  | quits {p : Pass} : Attempted (.write w) t (.pass p) → p.Quits →
      p.room < p.before.ctrl.countToWrite → Leaves w t

/-- **A `write` gives up**: its arguments are in range, the stream is open, no interruption is
seen around the native method, which has the lock of an upload that is not complete, and it
leaves bytes behind though nothing has failed that it has asked of libcurl. -/
structure BodyCall.GivesUp (w : BodyCall) (s : StreamCall) (t : Transfer) : Prop where
  inRange : w.InRange
  opened : s.closed = false
  uninterrupted : s.interruptedBefore = false
  uninterruptedAfter : s.interruptedAfter = false
  free : t.ctrl.busy = false
  incomplete : t.ctrl.goalReached = false
  quiet : ∀ a, Attempted (.write w) t a → ¬ a.Fails
  leaves : w.Leaves t

/-! ## What is left, from exit to exit -/

theorem Transfer.resumeSending_eq (w : BodyCall) (t : Transfer) :
    resumeSending w.pause (w.writing t) =
      if t.ctrl.state.sendPaused then
        (((w.writing t).unpaused (·.setSendPaused false)).invokeAll w.pause.callbacks,
          w.pause.returns)
      else (w.writing t, some .ok) := resume_eq _ _ _ _

/-- Resuming takes the room that it offers off the bytes of the `write`. -/
theorem Metered.resumed (hw : w.InRange) (hok : (Call.write w).All Callback.Sized)
    {code : CURLcode} (h : Transfer.resumeSending w.pause (w.writing t) = (s, some code)) :
    Metered w t.curl.uploaded t.accepts (leftBehind w.count (w.roomResuming t)) s := by
  have hbegins := Metered.begins w t
  rw [Transfer.resumeSending_eq] at h
  unfold BodyCall.roomResuming
  by_cases hpaused : t.ctrl.state.sendPaused = true
  · rw [if_pos hpaused] at h ⊢
    obtain rfl := congrArg Prod.fst h
    exact (hbegins.unpaused hw).invokeAll hw _ hok.1
  · rw [if_neg hpaused] at h ⊢
    cases h
    rw [leftBehind_zero (hbegins.nonneg hw)]
    exact hbegins

/-- The account is kept from pass to pass. -/
theorem Metered.pass {before : List UInt8} {accepting : Bool} {left : Int} (hw : w.InRange)
    (hok : (Call.write w).All Callback.Sized) (h : Metered w before accepting left s)
    (hp : p ∈ Transfer.loopPasses w.loop s) :
    Metered w before accepting (leftBehind p.before.ctrl.countToWrite p.room) p.run.1 := by
  have hpasses : ∀ p ∈ Transfer.loopPasses w.loop s,
      (∀ callback ∈ p.it.perform.callbacks, callback.Sized) ∧
        ∃ left, Metered w before accepting left p.before := by
    refine Transfer.forall_passes (I := fun _ t => ∃ left, Metered w before accepting left t) ?_
      _ _ s hok.2 ⟨left, h⟩
    rintro it timer t t' timer' hit ⟨left, h⟩ hrun
    have hnext := h.iterate hw timer hit
    rw [hrun] at hnext
    exact ⟨_, hnext⟩
  obtain ⟨hit, left, hbefore⟩ := hpasses p hp
  rw [hbefore.left]
  exact hbefore.iterate hw p.timer hit

theorem leftBehind_pos {left : Int} {room : Nat} : 0 < leftBehind left room ↔ room < left := by
  unfold leftBehind
  omega

/-! ## Writes that return -/

/-- The handle behind a `write` that has got the lock. -/
def Transfer.written (s : Transfer) : Transfer :=
  s.modify fun ctrl => { ctrl.setNeedOutput false with busy := false }

theorem Transfer.send_of_exit (h : (w.writes t).Exit s) :
    send w (w.writing t) = (s, some ()) := by
  unfold send
  cases h with
  | refused hresume hcode =>
    rw [bind_some (show resumeSending w.pause (w.writing t) = _ from hresume), if_pos hcode]
    rfl
  | stays hresume hnot =>
    rw [bind_some (show resumeSending w.pause (w.writing t) = _ from hresume),
      if_neg (not_not.mpr rfl)]
    by_cases hinterrupted : w.interrupted = true
    · rw [if_pos hinterrupted]
      rfl
    · rw [if_neg hinterrupted]
      have hcount : ¬ 0 < s.ctrl.countToWrite := fun hcount =>
        hnot ⟨Bool.eq_false_iff.mpr hinterrupted, hcount⟩
      show (if 0 < s.ctrl.countToWrite then _ else pure () : Program Transfer Unit) s = _
      rw [if_neg hcount]
      rfl
  | loops hresume henters hloop =>
    rename_i s₁ ended
    rw [bind_some (show resumeSending w.pause (w.writing t) = _ from hresume),
      if_neg (not_not.mpr rfl), if_neg (ne_true_of_eq_false henters.1)]
    show (if 0 < s₁.ctrl.countToWrite then _ else pure () : Program Transfer Unit) s₁ = _
    rw [if_pos henters.2, bind_some (show curlPerform w.loop s₁ = _ from hloop)]
    rfl

theorem StreamCall.outcome_ok_iff {c : StreamCall} {returned : Returned} :
    (∃ n, c.outcome returned t = .ok n) ↔ ¬ t.Raised ∧ c.interruptedAfter = false := by
  unfold outcome Transfer.Raised
  cases t.ctrl.env.pending with
  | some e => simp
  | none => cases c.interruptedAfter <;> simp

/-- A Java `write` that throws nothing comes from a native one that leaves no exception. -/
theorem Transfer.outputWrite_ok_iff {c : StreamCall} :
    outputWrite c w t = (t', some (.ok ())) ↔
      (w.InRange ∧ c.closed = false ∧ c.interruptedBefore = false ∧ c.interruptedAfter = false) ∧
        ∃ returned, write w t = (t', some returned) ∧ ¬ t'.Raised := by
  have hstream : doWrite c w t = (t', some (.ok ())) ↔
      ∃ n, stream c (write w) t = (t', some (.ok n)) := by
    constructor
    · intro h
      obtain ⟨s, result, hstream, hresult⟩ := bind_eq_some h
      rcases result with e | n
      · cases hresult
      · cases hresult
        exact ⟨n, hstream⟩
    · rintro ⟨n, h⟩
      rw [doWrite, bind_some h]
      rfl
  by_cases hrange : w.InRange
  swap
  · rw [outputWrite, if_neg hrange]
    exact iff_of_false nofun fun h => hrange h.1.1
  rw [outputWrite, if_pos hrange, hstream]
  simp only [stream_eq, hrange, true_and]
  by_cases hclosed : c.closed = true
  · rw [if_pos hclosed]
    exact iff_of_false nofun fun h => ne_false_of_eq_true hclosed h.1.1
  by_cases hbefore : c.interruptedBefore = true
  · rw [if_neg hclosed, if_pos hbefore]
    exact iff_of_false nofun fun h => ne_false_of_eq_true hbefore h.1.2.1
  rw [if_neg hclosed, if_neg hbefore]
  rcases hwrite : write w t with ⟨s, _ | returned⟩
  · exact iff_of_false nofun nofun
  simp only [Bool.not_eq_true] at hclosed hbefore
  have houtcome : (∃ n, c.outcome returned s = .ok n) ↔ ¬ s.Raised ∧ c.interruptedAfter = false :=
    StreamCall.outcome_ok_iff
  constructor
  · rintro ⟨n, h⟩
    obtain ⟨rfl, hresult⟩ := Prod.mk.inj h
    have hresult : some (c.outcome returned s) = some (.ok n) := hresult
    obtain ⟨hquiet, hafter⟩ := houtcome.mp ⟨n, Option.some.inj hresult⟩
    exact ⟨⟨hclosed, hbefore, hafter⟩, returned, rfl, hquiet⟩
  · rintro ⟨⟨-, -, hafter⟩, returned', h, hquiet⟩
    cases h
    obtain ⟨n, hn⟩ := houtcome.mpr ⟨hquiet, hafter⟩
    exact ⟨n, congrArg (fun result => (t', some result)) hn⟩

/-- A native `write` that leaves no exception has got the lock of an upload that is not
complete, and has taken one of its exits. -/
theorem Transfer.write_quiet_iff :
    (∃ returned, write w t = (t', some returned) ∧ ¬ t'.Raised) ↔
      (t.ctrl.busy = false ∧ t.ctrl.goalReached = false) ∧
        ∃ s, (w.writes t).Exit s ∧ ¬ s.Raised ∧ t' = s.written := by
  constructor
  · rintro ⟨returned, h, hquiet⟩
    cases hbusy : t.ctrl.busy with
    | true =>
      rw [write, acquire_taken hbusy] at h
      cases h
      exact absurd (Option.some_ne_none _) hquiet
    | false =>
    cases hgoal : t.ctrl.goalReached with
    | true =>
      rw [write_closed hbusy hgoal] at h
      cases h
      exact absurd (pending_throw _ _) hquiet
    | false =>
      rw [write_open hbusy hgoal] at h
      obtain ⟨s, sent, hsend, h⟩ := bind_eq_some h
      cases h
      exact ⟨⟨rfl, rfl⟩, s, exit_of_send hsend, hquiet, rfl⟩
  · rintro ⟨⟨hbusy, hgoal⟩, s, hexit, hquiet, rfl⟩
    refine ⟨.int (w.count - s.ctrl.countToWrite), ?_, hquiet⟩
    rw [write_open hbusy hgoal, writeOpen, bind_some (show writeBody w t.entered = (s, some ())
      from send_of_exit hexit)]
    rfl

theorem Metered.modify_handleEasyError {before : List UInt8} {accepting : Bool} {left : Int}
    (hw : w.InRange) (h : Metered w before accepting left s) (code : CURLcode) :
    Metered w before accepting left (s.modify (·.handleEasyError code)) :=
  h.settled hw ⟨_, s.waits, s.ctrl.io_handleEasyError code, rfl⟩

/-- Every exit is taken with the account kept. -/
theorem Resuming.Exit.metered (hw : w.InRange) (hok : (Call.write w).All Callback.Sized)
    (h : (w.writes t).Exit s) : ∃ left, Metered w t.curl.uploaded t.accepts left s := by
  cases h with
  | refused hresume hcode =>
    exact ⟨_, (Metered.resumed hw hok hresume).modify_handleEasyError hw _⟩
  | stays hresume hnot => exact ⟨_, Metered.resumed hw hok hresume⟩
  | loops hresume henters hloop =>
    obtain ⟨p, hlast, hrun⟩ := Transfer.exists_last_pass _ hloop
    have hmetered := (Metered.resumed hw hok hresume).pass hw hok (List.mem_of_getLast? hlast)
    rw [hrun] at hmetered
    exact ⟨_, hmetered⟩

/-- **The exits that leave bytes behind**, when nothing has failed. -/
theorem BodyCall.leaves_iff (hw : w.InRange) (hok : (Call.write w).All Callback.Sized)
    (hgoal : t.ctrl.goalReached = false)
    (hquiet : ∀ a, Attempted (.write w) t a → ¬ a.Fails) :
    w.Leaves t ↔ ∃ s, (w.writes t).Exit s ∧ 0 < s.ctrl.countToWrite := by
  constructor
  · intro h
    cases h with
    | refused hpaused hreturns hcode hroom =>
      have hresume := (Transfer.resumeSending_eq w t).trans (if_pos hpaused)
      rw [hreturns] at hresume
      have hmetered := (Metered.resumed hw hok hresume).modify_handleEasyError hw
      exact ⟨_, .refused hresume hcode, (hmetered _).left ▸ leftBehind_pos.mpr hroom⟩
    | interrupted hresumes hinterrupted hroom =>
      obtain ⟨s, hresume⟩ : ∃ s, Transfer.resumeSending w.pause (w.writing t) = (s, some .ok) := by
        rw [Transfer.resumeSending_eq]
        split
        · rename_i hpaused
          exact ⟨_, congrArg (Prod.mk _) (hresumes hpaused)⟩
        · exact ⟨_, rfl⟩
      refine ⟨s, .stays hresume fun henters => ?_, ?_⟩
      · exact ne_false_of_eq_true hinterrupted henters.1
      · exact (Metered.resumed hw hok hresume).left ▸ leftBehind_pos.mpr hroom
    | quits ha hquits hroom =>
      cases ha with
      | writing _ hresume hinterrupted hcount hp =>
        obtain ⟨t', result, hrun⟩ := hquits.run
        have hmetered := (Metered.resumed hw hok hresume).pass hw hok hp
        rw [hrun] at hmetered
        exact ⟨t', .loops hresume ⟨hinterrupted, hcount⟩ (Transfer.iterateAll_of_stop _ hp hrun),
          hmetered.left ▸ leftBehind_pos.mpr hroom⟩
  · rintro ⟨s, hexit, hcount⟩
    cases hexit with
    | refused hresume hcode =>
      have hmetered := (Metered.resumed hw hok hresume).modify_handleEasyError hw
      have hroom := leftBehind_pos.mp ((hmetered _).left ▸ hcount)
      have hresult := congrArg Prod.snd ((Transfer.resumeSending_eq w t).symm.trans hresume)
      split at hresult
      · rename_i hpaused
        exact .refused hpaused hresult hcode hroom
      · cases hresult
        exact absurd rfl hcode
    | stays hresume hnot =>
      have hroom := leftBehind_pos.mp ((Metered.resumed hw hok hresume).left ▸ hcount)
      have hresult := congrArg Prod.snd ((Transfer.resumeSending_eq w t).symm.trans hresume)
      refine .interrupted (fun hpaused => ?_) ?_ hroom
      · rw [if_pos hpaused] at hresult
        exact hresult
      · exact eq_true_of_ne_false fun hinterrupted => hnot ⟨hinterrupted, hcount⟩
    | loops hresume henters hloop =>
      obtain ⟨p, hlast, hrun⟩ := Transfer.exists_last_pass _ hloop
      have hp : p ∈ Transfer.loopPasses w.loop _ := List.mem_of_getLast? hlast
      have ha : Attempted (.write w) t (.pass p) :=
        .writing hgoal hresume henters.1 henters.2 hp
      have hmetered := (Metered.resumed hw hok hresume).pass hw hok hp
      rw [hrun] at hmetered
      exact .quits ha (Pass.quits_of_stop hrun (hquiet _ ha))
        (leftBehind_pos.mp (hmetered.left ▸ hcount))

/-! ## Nothing is dropped silently -/

/-- If the Java call returns normally, `read_callback` has handed over all of its bytes. -/
def NoSilentDrop (c : StreamCall) (w : BodyCall) (t : Transfer) : Prop :=
  ∀ t', Transfer.outputWrite c w t = (t', some (.ok ())) →
    t'.curl.uploaded = t.curl.uploaded ++ w.region

/-- **A `write` drops bytes silently exactly when it gives up**, whatever the state of the
handle and the behaviour of libcurl. -/
theorem no_silent_drop_iff (hok : (Call.write w).All Callback.Sized) (c : StreamCall)
    (t : Transfer) : NoSilentDrop c w t ↔ ¬ w.GivesUp c t := by
  constructor
  · intro h hgives
    obtain ⟨s, hexit, hcount⟩ :=
      (BodyCall.leaves_iff hgives.inRange hok hgives.incomplete hgives.quiet).mp hgives.leaves
    have hraised : ¬ s.Raised := by
      rw [hexit.raised (fun _ => rfl) rfl]
      rintro ⟨a, ha, hfails⟩
      exact hgives.quiet a ((attempted_write hgives.incomplete).mpr ha) hfails
    have hreturns := Transfer.outputWrite_ok_iff.mpr
      ⟨⟨hgives.inRange, hgives.opened, hgives.uninterrupted, hgives.uninterruptedAfter⟩,
        Transfer.write_quiet_iff.mpr ⟨⟨hgives.free, hgives.incomplete⟩, s, hexit, hraised, rfl⟩⟩
    obtain ⟨left, hmetered⟩ := hexit.metered hgives.inRange hok
    have hwhole : s.curl.uploaded = t.curl.uploaded ++ w.region := h s.written hreturns
    have hleft := (hmetered.whole_iff hgives.inRange).mp hwhole
    have hnone : s.ctrl.countToWrite = 0 := hmetered.left.trans hleft
    omega
  · intro hgives t' h
    obtain ⟨⟨hw, hopened, hbefore, hafter⟩, hreturns⟩ := Transfer.outputWrite_ok_iff.mp h
    obtain ⟨⟨hbusy, hgoal⟩, s, hexit, hraised, rfl⟩ := Transfer.write_quiet_iff.mp hreturns
    have hquiet : ∀ a, Attempted (.write w) t a → ¬ a.Fails := by
      intro a ha hfails
      refine hraised ((hexit.raised (fun _ => rfl) rfl).mpr ⟨a, ?_, hfails⟩)
      exact (attempted_write hgoal).mp ha
    obtain ⟨left, hmetered⟩ := hexit.metered hw hok
    refine (hmetered.whole_iff hw).mpr ?_
    have hnonneg := hmetered.nonneg hw
    have hnot : ¬ 0 < s.ctrl.countToWrite := fun hcount => hgives
      ⟨hw, hopened, hbefore, hafter, hbusy, hgoal, hquiet,
        (BodyCall.leaves_iff hw hok hgoal hquiet).mpr ⟨s, hexit, hcount⟩⟩
    have hleft := hmetered.left
    omega

end Write

/-- An upload without an announced length, configured on a fresh handle. -/
def uploadStarted : Transfer :=
  (runCalls [.nativeConfigure (configureUpload 0)] (.fresh latinPlatform fun _ => 0)).1

theorem not_givesUp_writeTaken : ¬ writeTaken.GivesUp ⟨false, false, false⟩ uploadStarted := by
  intro h
  cases h.leaves with
  | refused _ hreturns hcode _ =>
    cases hreturns
    exact hcode rfl
  | interrupted _ hinterrupted _ => cases hinterrupted
  | quits ha _ hroom =>
    cases ha with
    | writing _ hresume _ _ hp =>
      cases hresume
      obtain rfl := List.mem_singleton.mp hp
      exact absurd hroom (by decide)

/-- The `write` returns, and all of its bytes have been handed over. -/
theorem no_silent_drop_writeTaken :
    (Transfer.outputWrite ⟨false, false, false⟩ writeTaken uploadStarted).2 = some (.ok ()) ∧
      NoSilentDrop ⟨false, false, false⟩ writeTaken uploadStarted := by
  refine ⟨rfl, (no_silent_drop_iff ?_ _ _).mpr not_givesUp_writeTaken⟩
  simp [Call.All, Loop.All, Pause.All, writeTaken, writeThree, quietIteration, Callback.Sized]

/-- A `write` of three bytes to a server that has answered: the transfer is over before
libcurl asks for data. -/
def writeAnswered : BodyCall :=
  { writeThree with
    pause := ⟨[], some .ok⟩
    loop := ⟨⟨0, 0⟩, [⟨false, ⟨[], some (.ok, 0)⟩, [⟨true, .ok⟩], false, -1, none, ⟨0, 0⟩⟩]⟩ }

/-- The `write` returns, and none of its bytes has been handed over. -/
theorem not_no_silent_drop_writeAnswered :
    ¬ NoSilentDrop ⟨false, false, false⟩ writeAnswered uploadStarted := by
  intro h
  have huploaded : ([] : List UInt8) = [1, 2, 3] := h _ rfl
  cases huploaded

end Chttpc
