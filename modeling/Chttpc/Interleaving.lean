import Chttpc.NativeSteps
import Chttpc.Upload

/-!
# Native calls from several threads

Java may call the native methods of one handle from several threads, and between any two steps of
one of them the others may move.  `ctrl->busy` is all that orders them: whatever the threads do,
the calls that get the lock are calls one after another (`calls_serialized`).  A call finds the
lock taken only while another thread has it, or behind a `write` that was made past the announced
length, and is refused then without a trace but the exception pending in its own thread.

The answer of a `write` is read behind the lock, and so it may be about a later call.
-/

namespace Chttpc
open TryLock

/-- The calls, guarded by `ctrl->busy`.  The pending exception belongs to the thread. -/
def nativeCalls : Guarded Transfer JNIEnv Call Returned where
  taken t := t.ctrl.busy
  own t := t.ctrl.env
  lend t env := { t with ctrl := { t.ctrl with env } }
  acquire := Transfer.acquire false (pure true)
  release := Transfer.released
  failure call := call.behind.failure
  refusal := ⟨some threadingException⟩
  body call := call.behind.steps.code
  settled := Call.Settled
  lend_own _ := rfl
  lend_lend _ _ _ := rfl
  own_lend _ _ := rfl
  taken_lend _ _ := rfl
  acquire_lend _ _ := rfl
  acquire_free t h := ⟨t.entered, Transfer.acquire_free h, rfl⟩
  acquire_taken _ h := Transfer.acquire_taken h
  ends_settled call h := call.behind.steps.ends.imp fun _ hexit => hexit h

/-- A call without another thread in between is the method. -/
theorem call_nativeCalls (call : Call) : nativeCalls.call call = call.run := by
  funext t
  rw [call.behind.run_eq]
  cases hbusy : t.ctrl.busy with
  | false =>
    rw [Transfer.acquire_free hbusy, Guarded.call,
      Program.bind_some (show nativeCalls.acquire t = _ from Transfer.acquire_free hbusy)]
    exact congrFun call.behind.steps.denotes t.entered
  | true =>
    rw [Transfer.acquire_taken hbusy, Guarded.call,
      Program.bind_some (show nativeCalls.acquire t = _ from Transfer.acquire_taken hbusy)]
    rfl

theorem forEach_nativeCalls (calls : List Call) :
    Program.forEach nativeCalls.call calls = runCalls calls :=
  congrArg (Program.forEach · calls) (funext call_nativeCalls)

/-- A `write` is made when the announced length of the upload has been reached. -/
def WritesBeyond (calls : List Call) (t : Transfer) : Prop :=
  ∃ before w t', before ++ [.write w] <+: calls ∧ runCalls before t = (t', some ()) ∧
    t'.ctrl.goalReached = true

/-- The call is one of those that have got the lock, and has answered what it answers when these
are made one after another; a `write` may have answered something else. -/
def AnsweredInTurn (calls : List Call) (t₀ : Transfer)
    (answer : Guarded.Answer JNIEnv Call Returned) : Prop :=
  ∃ before t t' returned, before ++ [answer.call] <+: calls ∧
    runCalls before t₀ = (t, some ()) ∧ answer.call.run t = (t', some returned) ∧
    answer.own = t'.ctrl.env ∧ (answer.call.Settled → answer.value = returned)

variable {ι : Type} [DecidableEq ι]

omit [DecidableEq ι] in
/-- From a released handle, a call finds the lock taken while another thread has it, or behind a
`write` past the announced length. -/
theorem taken_of_serial {t₀ : Transfer} (h₀ : Released t₀) {x : nativeCalls.Config ι}
    (h : nativeCalls.Serial t₀ x) {i : ι} (hi : x.thread i = .idle)
    (hbusy : x.shared.ctrl.busy = true) :
    (∃ j, j ≠ i ∧ (x.thread j).Inside) ∨ WritesBeyond x.granted t₀ := by
  rcases h.now with ⟨t, -, hrun, hsame⟩ | ⟨j, _, _, _, -, -, -, -, hgoing⟩
  · -- nobody is inside, so the lock is one that a call has kept
    refine Or.inr (by_contra fun hnot => ?_)
    rw [forEach_nativeCalls] at hrun
    have hreleased := (released_throughout_iff h₀ x.granted).mpr
      (fun before w hpre t' ht' => by
        by_contra hgoal
        exact hnot ⟨before, w, t', hpre, ht', by simpa using hgoal⟩)
      x.granted (List.prefix_refl _) t hrun
    have htaken : x.shared.ctrl.busy = t.ctrl.busy := Guarded.taken_of_same hsame
    rw [hreleased.busy, hbusy] at htaken
    cases htaken
  · refine Or.inl ⟨j, ?_, hgoing.inside⟩
    rintro rfl
    rw [hi] at hgoing
    exact hgoing

/-- **Calls from several threads are calls one after another.** -/
theorem calls_serialized {t₀ : Transfer} (h₀ : Released t₀) (own : ι → JNIEnv)
    (moves : List (Guarded.Move ι Call)) :
    let x := Runs.run nativeCalls.move (nativeCalls.start t₀ own) moves
    (∀ i j, (x.thread i).Inside → (x.thread j).Inside → i = j) ∧
    ((∀ i, ¬ (x.thread i).Inside) →
      ∃ t, runCalls x.granted t₀ = (t, some ()) ∧ nativeCalls.Same x.shared t) ∧
    (∀ i, (x.thread i).Inside → x.shared.ctrl.busy = true ∧
      ∃ before call t, x.granted = before ++ [call] ∧ runCalls before t₀ = (t, some ()) ∧
        nativeCalls.Going call (call.run t) (x.view i) (x.thread i)) ∧
    (∀ answer ∈ x.answers,
      answer.value = answer.call.behind.failure ∧ answer.own = ⟨some threadingException⟩ ∨
        AnsweredInTurn x.granted t₀ answer) ∧
    ∀ i call, x.thread i = .idle →
      let y := nativeCalls.move x (.call i call)
      x.shared.ctrl.busy = false ∧ y.granted = x.granted ++ [call] ∧ (y.thread i).Inside ∨
        nativeCalls.Refused i call x y ∧
          ((∃ j, j ≠ i ∧ (x.thread j).Inside) ∨ WritesBeyond x.granted t₀) := by
  intro x
  have hserial : nativeCalls.Serial t₀ x := Guarded.Serial.run t₀ own moves
  refine ⟨fun i j hi hj => ?_, fun hnone => ?_, fun i hi => ?_, fun answer hanswer => ?_,
    fun i call hi => ?_⟩
  · obtain ⟨-, -, -, -, -, hothers, -⟩ := hserial.now.going hi
    by_contra hij
    exact hothers j (Ne.symm hij) hj
  · rcases hserial.now with ⟨t, -, hrun, hsame⟩ | ⟨j, _, _, _, -, -, -, -, hgoing⟩
    · exact ⟨t, forEach_nativeCalls x.granted ▸ hrun, hsame⟩
    · exact absurd hgoing.inside (hnone j)
  · obtain ⟨call, before, t, hgranted, hrun, -, htaken, hgoing⟩ := hserial.now.going hi
    rw [forEach_nativeCalls] at hrun
    rw [call_nativeCalls] at hgoing
    exact ⟨htaken, before, call, t, hgranted, hrun, hgoing⟩
  · refine (hserial.answers answer hanswer).imp id fun hturn => ?_
    obtain ⟨before, t, t', returned, hpre, hrun, hanswered, hown, hvalue⟩ := hturn
    rw [forEach_nativeCalls] at hrun
    rw [call_nativeCalls] at hanswered
    exact ⟨before, t, t', returned, hpre, hrun, hanswered, hown, hvalue⟩
  · cases hbusy : x.shared.ctrl.busy with
    | false =>
      obtain ⟨s, -, -, hmove⟩ := Guarded.move_call_free hi hbusy call
      refine Or.inl ⟨rfl, ?_, ?_⟩
      · rw [hmove]
      · rw [hmove]
        show ((x.moved i s (.inside call _)).thread i).Inside
        rw [Guarded.thread_moved_self]
        trivial
    | true =>
      exact Or.inr ⟨Guarded.refused_of_taken hi hbusy call, taken_of_serial h₀ hserial hi hbusy⟩

/-- Two threads.  The second one wants to reset the handle while the first one configures it, and
is refused.  Then it uploads three bytes, and has given the lock back, but not read its answer,
when the first one uploads three more. -/
def twoThreads : List (Guarded.Move Bool Call) :=
  .call false (.nativeConfigure (configureUpload 6)) :: List.replicate 3 (.go false) ++
    .call true .reset :: List.replicate 20 (.go false) ++
    .call true (.write writeTaken) :: List.replicate 16 (.go true) ++
    .call false (.write writeTaken) :: List.replicate 2 (.go false) ++
    .go true :: List.replicate 20 (.go false)

/-- The calls are calls in turn, but the first `write` answers what the second one has stored. -/
theorem calls_serialized_twoThreads :
    let x := Runs.run nativeCalls.move
      (nativeCalls.start (.fresh latinPlatform fun _ => 0) fun _ => ⟨none⟩) twoThreads
    x.granted = [.nativeConfigure (configureUpload 6), .write writeTaken, .write writeTaken] ∧
      x.answers.map (·.value) = [.void, .chars (some []), .int 0, .int 3] ∧
      ∃ t, runCalls x.granted (.fresh latinPlatform fun _ => 0) = (t, some ()) ∧
        nativeCalls.Same x.shared t := by
  refine ⟨rfl, rfl, ?_⟩
  refine (calls_serialized (released_fresh latinPlatform fun _ => 0) _ _).2.1 fun i => ?_
  cases i with
  | false => exact id
  | true => exact id

end Chttpc
