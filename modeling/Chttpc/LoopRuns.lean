import Chttpc.FilledRead

/-!
# Runs of the loop

A run of `curlPerform` is the list of its passes (`Transfer.passes`): the iterations
it has begun, each with the variables of the loop and the state at its head.  What is
kept from head to head holds at every pass (`forall_passes`), and the last pass is the
one that ends the loop (`exists_last_pass`).

`Iterated` says once what an iteration that comes back has done, exit by exit, in the
order of the source.
-/

namespace Chttpc
open Program

/-! ## The wait -/

/-- The time `curl_multi_wait` is given; the call is made if it is positive. -/
def Iteration.waitTime (it : Iteration) (timer : Timer) : Int :=
  if timer.timeout < it.multiTimeout then timer.timeout else it.multiTimeout

/-- What `fdEvents` holds behind the wait, which is what it held before if there was
none. -/
def Iteration.fdEvents (it : Iteration) (timer : Timer) : Int :=
  if 0 < it.waitTime timer then (it.wait.map (·.2)).getD 0 else timer.fdEvents

/-- The wait, if there is one, has come back without an error. -/
def Iteration.PastWait (it : Iteration) (timer : Timer) : Prop :=
  0 < it.waitTime timer → ∃ n, it.wait = some (.ok, n)

/-- The wait is in the ledger. -/
def Transfer.waited (it : Iteration) (timer : Timer) (t : Transfer) : Transfer :=
  if 0 < it.waitTime timer then t.noteWait else t

/-- What the wait and the account of the time it took have come to. -/
inductive Awaited (it : Iteration) (timer : Timer) (t : Transfer) : Transfer → Flow → Prop
  | waitError {result : CURLMcode} {n : Int} : 0 < it.waitTime timer →
      it.wait = some (result, n) → result ≠ .ok →
      Awaited it timer t ((t.waited it timer).modify (·.handleMultiError result)) (.stop true)
  | rearmed : it.PastWait timer → it.fdEvents timer ≠ 0 →
      Awaited it timer t (t.waited it timer)
        (.again ⟨t.ctrl.fullTimeout, timer.timestamp, it.fdEvents timer⟩)
  | timedOut : it.PastWait timer → it.fdEvents timer = 0 →
      subtractElapsed timer.timeout timer.timestamp it.clock ≤ 0 →
      Awaited it timer t
        ((t.waited it timer).modify fun ctrl => ctrl.throwTimeout ctrl.headerPairCount) (.stop true)
  | counted : it.PastWait timer → it.fdEvents timer = 0 →
      0 < subtractElapsed timer.timeout timer.timestamp it.clock →
      Awaited it timer t (t.waited it timer)
        (.again ⟨subtractElapsed timer.timeout timer.timestamp it.clock, it.clock, 0⟩)

section Wait
variable {it : Iteration} {timer : Timer} {t t' : Transfer} {flow : Flow}

theorem Awaited.of_account (hpast : it.PastWait timer)
    (h : Transfer.account it { timer with fdEvents := it.fdEvents timer } (t.waited it timer) =
      (t', some flow)) : Awaited it timer t t' flow := by
  have hfull : (t.waited it timer).ctrl.fullTimeout = t.ctrl.fullTimeout := by
    unfold Transfer.waited
    split <;> rfl
  unfold Transfer.account at h
  by_cases hevents : it.fdEvents timer = 0
  · rw [if_neg (not_not.mpr hevents)] at h
    by_cases hleft : subtractElapsed timer.timeout timer.timestamp it.clock ≤ 0
    · rw [if_pos hleft] at h
      cases h
      exact .timedOut hpast hevents hleft
    · rw [if_neg hleft, hevents] at h
      cases h
      exact .counted hpast hevents (by omega)
  · rw [if_pos hevents] at h
    cases h
    dsimp only
    rw [hfull]
    exact .rearmed hpast hevents

theorem Awaited.of_await (h : Transfer.await it timer t = (t', some flow)) :
    Awaited it timer t t' flow := by
  unfold Transfer.await at h
  change (if 0 < it.waitTime timer then _ else _ : Program Transfer Flow) t = _ at h
  by_cases hwait : 0 < it.waitTime timer
  · have hevents : it.fdEvents timer = (it.wait.map (·.2)).getD 0 := if_pos hwait
    have hwaited : t.waited it timer = t.noteWait := if_pos hwait
    rw [if_pos hwait, bind_some (update_apply _ _)] at h
    cases hanswer : it.wait with
    | none => rw [hanswer] at h; cases h
    | some answer =>
      obtain ⟨result, n⟩ := answer
      rw [hanswer, bind_some (call_apply _ _ _)] at h
      dsimp only at h
      rw [hanswer] at hevents
      by_cases hresult : result = .ok
      · rw [if_neg (not_not.mpr hresult), ← hwaited] at h
        refine Awaited.of_account (fun _ => ⟨n, hresult ▸ hanswer⟩) ?_
        rw [hevents]
        exact h
      · rw [if_pos hresult] at h
        cases h
        have herror := Awaited.waitError (t := t) hwait hanswer hresult
        rw [hwaited] at herror
        exact herror
  · have hevents : it.fdEvents timer = timer.fdEvents := if_neg hwait
    have hwaited : t.waited it timer = t := if_neg hwait
    rw [if_neg hwait] at h
    refine Awaited.of_account (fun h => absurd h hwait) ?_
    rw [hevents, hwaited]
    exact h

end Wait

/-! ## One iteration -/

namespace Transfer

/-- The state in which the loop looks at the flags: libcurl has been called and its
messages have been read. -/
def checked (it : Iteration) (t : Transfer) : Transfer :=
  { t.invokeAll it.perform.callbacks with
    ctrl := ((t.invokeAll it.perform.callbacks).ctrl.checkResult it.messages).1 }

/-- `checkResult` has found that the transfer is complete. -/
def completed (it : Iteration) (t : Transfer) : Bool :=
  ((t.invokeAll it.perform.callbacks).ctrl.checkResult it.messages).2

end Transfer

/-- **What an iteration that comes back has done**, by the exit it has taken. -/
inductive Iterated (it : Iteration) (timer : Timer) (t : Transfer) : Transfer → Flow → Prop
  | interrupted : it.interrupted = true → Iterated it timer t t (.stop false)
  | multiError {result : CURLMcode} {running : Nat} : it.interrupted = false →
      it.perform.returns = some (result, running) → result ≠ .ok →
      Iterated it timer t ((t.invokeAll it.perform.callbacks).modify (·.handleMultiError result))
        (.stop true)
  | completed {running : Nat} : it.interrupted = false →
      it.perform.returns = some (.ok, running) → t.completed it = true →
      Iterated it timer t (t.checked it) (.stop true)
  | bails {running : Nat} : it.interrupted = false →
      it.perform.returns = some (.ok, running) → t.completed it = false →
      (t.checked it).ctrl.bails (t.checked it).rodata = true →
      Iterated it timer t (t.checked it) (.stop false)
  | idle : it.interrupted = false → it.perform.returns = some (.ok, 0) → t.completed it = false →
      (t.checked it).ctrl.bails (t.checked it).rodata = false →
      Iterated it timer t (t.checked it) (.stop true)
  | interruptedAgain {running : Nat} : it.interrupted = false →
      it.perform.returns = some (.ok, running) → t.completed it = false →
      (t.checked it).ctrl.bails (t.checked it).rodata = false → running ≠ 0 →
      it.interruptedAgain = true → Iterated it timer t (t.checked it) (.stop false)
  | waits {running : Nat} {t' : Transfer} {flow : Flow} : it.interrupted = false →
      it.perform.returns = some (.ok, running) → t.completed it = false →
      (t.checked it).ctrl.bails (t.checked it).rodata = false → running ≠ 0 →
      it.interruptedAgain = false → Awaited it timer (t.checked it) t' flow →
      Iterated it timer t t' flow

theorem Iterated.of_iterate {it : Iteration} {timer : Timer} {t t' : Transfer} {flow : Flow}
    (h : Transfer.iterate it timer t = (t', some flow)) : Iterated it timer t t' flow := by
  unfold Transfer.iterate at h
  by_cases hinterrupted : it.interrupted = true
  · rw [if_pos hinterrupted] at h
    cases h
    exact .interrupted hinterrupted
  rw [if_neg hinterrupted] at h
  rw [Bool.not_eq_true] at hinterrupted
  obtain ⟨s, ⟨result, running⟩, hperform, h⟩ := bind_eq_some h
  obtain ⟨rfl, hreturns⟩ : t.invokeAll it.perform.callbacks = s ∧
      it.perform.returns = some (result, running) := by
    cases hanswer : it.perform.returns with
    | none => rw [Transfer.curlMultiPerform, hanswer] at hperform; cases hperform
    | some answer =>
      rw [Transfer.curlMultiPerform, hanswer] at hperform
      cases hperform
      exact ⟨rfl, rfl⟩
  dsimp only at h
  by_cases hresult : result = .ok
  swap
  · rw [if_pos hresult] at h
    cases h
    exact .multiError hinterrupted hreturns hresult
  subst hresult
  rw [if_neg (not_not.mpr rfl), bind_some (show Transfer.checkResult it.messages
    (t.invokeAll it.perform.callbacks) = (t.checked it, some (t.completed it)) from rfl)] at h
  cases hcompleted : t.completed it with
  | true =>
    rw [hcompleted, if_pos rfl] at h
    cases h
    exact .completed hinterrupted hreturns hcompleted
  | false =>
  rw [hcompleted, if_neg (by decide), bind_some (read_apply _ _)] at h
  cases hbails : (t.checked it).ctrl.bails (t.checked it).rodata with
  | true =>
    rw [hbails, if_pos rfl] at h
    cases h
    exact .bails hinterrupted hreturns hcompleted hbails
  | false =>
  rw [hbails, if_neg (by decide)] at h
  by_cases hrunning : running = 0
  · subst hrunning
    rw [if_pos rfl] at h
    cases h
    exact .idle hinterrupted hreturns hcompleted hbails
  rw [if_neg hrunning] at h
  cases hagain : it.interruptedAgain with
  | true =>
    rw [hagain, if_pos rfl] at h
    cases h
    exact .interruptedAgain hinterrupted hreturns hcompleted hbails hrunning hagain
  | false =>
    rw [hagain, if_neg (by decide)] at h
    exact .waits hinterrupted hreturns hcompleted hbails hrunning hagain (.of_await h)

/-! ## The passes of a run -/

/-- An iteration the loop has begun, with its variables and the state at its head. -/
structure Pass where
  it : Iteration
  timer : Timer
  before : Transfer

/-- What has become of it. -/
def Pass.run (pass : Pass) : Transfer × Option Flow :=
  Transfer.iterate pass.it pass.timer pass.before

namespace Transfer

/-- The passes of the loop, from a head on. -/
def passes : List Iteration → Timer → Transfer → List Pass
  | [], _, _ => []
  | it :: iterations, timer, t =>
      ⟨it, timer, t⟩ ::
        match iterate it timer t with
        | (t', some (.again timer')) => passes iterations timer' t'
        | _ => []

/-- The passes of a call of `curlPerform`. -/
def loopPasses (loop : Loop) (t : Transfer) : List Pass :=
  passes loop.iterations ⟨t.ctrl.fullTimeout, loop.started, 0⟩ t

variable {it : Iteration} {iterations : List Iteration} {timer timer' : Timer} {t t' : Transfer}

theorem passes_again (h : iterate it timer t = (t', some (.again timer'))) :
    passes (it :: iterations) timer t = ⟨it, timer, t⟩ :: passes iterations timer' t' := by
  rw [passes, h]

theorem iterateAll_again (h : iterate it timer t = (t', some (.again timer'))) :
    iterateAll (it :: iterations) timer t = iterateAll iterations timer' t' := by
  rw [iterateAll, bind_some h]

/-- **What is kept from head to head holds at every pass.** -/
theorem forall_passes {I : Timer → Transfer → Prop} {ok : Iteration → Prop}
    (hstep : ∀ it timer t t' timer', ok it → I timer t →
      iterate it timer t = (t', some (.again timer')) → I timer' t') :
    ∀ (iterations : List Iteration) (timer : Timer) (t : Transfer), (∀ it ∈ iterations, ok it) →
      I timer t → ∀ pass ∈ passes iterations timer t, ok pass.it ∧ I pass.timer pass.before
  | [], _, _, _, _, _, hpass => nomatch hpass
  | it :: iterations, timer, t, hok, h, pass, hpass => by
      have hit := hok it List.mem_cons_self
      rw [passes] at hpass
      rcases List.mem_cons.mp hpass with rfl | hpass
      · exact ⟨hit, h⟩
      · split at hpass
        · rename_i t' timer' hrun
          exact forall_passes hstep iterations timer' t'
            (fun it hit => hok it (List.mem_cons_of_mem _ hit)) (hstep _ _ _ _ _ hit h hrun) pass hpass
        · cases hpass

theorem passes_head {iterations : List Iteration} {timer : Timer} {t : Transfer} {pass : Pass}
    (h : (passes iterations timer t).head? = some pass) : pass.timer = timer ∧ pass.before = t := by
  cases iterations with
  | nil => cases h
  | cons it iterations => cases h; exact ⟨rfl, rfl⟩

/-- A pass begins where the one before it has gone on. -/
theorem isChain_passes : ∀ (iterations : List Iteration) (timer : Timer) (t : Transfer),
    (passes iterations timer t).IsChain fun pass next =>
      pass.run = (next.before, some (.again next.timer))
  | [], _, _ => .nil
  | it :: iterations, timer, t => by
      rw [passes]
      split
      · rename_i t' timer' hrun
        refine List.isChain_cons.mpr ⟨fun next hnext => ?_, isChain_passes iterations timer' t'⟩
        obtain ⟨rfl, rfl⟩ := passes_head hnext
        exact hrun
      · exact .singleton _

/-- So do the passes of a stretch of them. -/
theorem isChain_stretch {stretch : List Pass} (h : stretch <:+: passes iterations timer t) :
    stretch.IsChain fun pass next => pass.run = (next.before, some (.again next.timer)) := by
  have hchain := isChain_passes iterations timer t
  obtain ⟨before, after, hpasses⟩ := h
  rw [← hpasses] at hchain
  exact hchain.left_of_append.right_of_append

/-- **A loop that has come back has been ended by its last pass.** -/
theorem exists_last_pass : ∀ (iterations : List Iteration) {timer : Timer} {t t' : Transfer}
    {result : Bool}, iterateAll iterations timer t = (t', some result) →
      ∃ pass, (passes iterations timer t).getLast? = some pass ∧
        pass.run = (t', some (.stop result))
  | [], _, _, _, _, h => nomatch h
  | it :: iterations, timer, t, t', result, h => by
      obtain ⟨s, flow, hrun, hflow⟩ := bind_eq_some h
      cases flow with
      | stop ended =>
        cases hflow
        refine ⟨⟨it, timer, t⟩, ?_, hrun⟩
        rw [passes, hrun]
        rfl
      | again timer' =>
        obtain ⟨pass, hlast, hpass⟩ := exists_last_pass iterations hflow
        refine ⟨pass, ?_, hpass⟩
        rw [passes_again hrun, List.getLast?_cons, hlast]
        rfl

end Transfer
end Chttpc
