import Chttpc.JavaExceptions

/-!
# Failures are reported

A call that has the lock asks libcurl for one thing after another, and looks for failures in
several places: in what a callback needs from the virtual machine, in the answer of
`curl_easy_pause`, `curl_multi_perform` and `curl_multi_wait`, in the messages of a transfer
that is over, and in the time that is left.  All that Java learns of it is the exception that
is pending when the call comes back.

`pending_iff` says that this is enough: an exception is pending exactly if something has
failed.  Nothing that has failed is forgotten while the loop goes round, and nothing is
raised for a call in which all went well.
-/

namespace Chttpc
open Program

/-! ## What is pending -/

/-- An exception is pending. -/
def Transfer.Raised (t : Transfer) : Prop := t.ctrl.env.pending ≠ none

/-- The exceptions that callbacks raise, one after another. -/
def Transfer.raisedBy : List Callback → Transfer → List Throwable
  | [], _ => []
  | callback :: callbacks, t => (callback.raises t).toList ++ (t.invoke callback).raisedBy callbacks

theorem pending_throw (env : JNIEnv) (e : Throwable) : (env.throw e).pending ≠ none := by
  rcases env with ⟨_ | pending⟩
  · nofun
  · nofun

theorem pending_throwSome (env : JNIEnv) (e : Option Throwable) :
    (env.throwSome e).pending ≠ none ↔ env.pending ≠ none ∨ e ≠ none := by
  cases e with
  | none => simp [JNIEnv.throwSome]
  | some e => simp [JNIEnv.throwSome, pending_throw]

theorem raised_invokeAll (callbacks : List Callback) {t : Transfer} :
    (t.invokeAll callbacks).Raised ↔ t.Raised ∨ t.raisedBy callbacks ≠ [] := by
  induction callbacks generalizing t with
  | nil => simp [Transfer.invokeAll, Transfer.raisedBy]
  | cons callback callbacks ih =>
    have hone : (t.invoke callback).Raised ↔ t.Raised ∨ callback.raises t ≠ none := by
      unfold Transfer.Raised
      rw [env_invoke]
      exact pending_throwSome _ _
    have hlist : (t.raisedBy (callback :: callbacks)) ≠ [] ↔
        callback.raises t ≠ none ∨ (t.invoke callback).raisedBy callbacks ≠ [] := by
      rw [Transfer.raisedBy]
      cases callback.raises t with
      | none => simp
      | some e => simp
    show ((t.invoke callback).invokeAll callbacks).Raised ↔ _
    rw [ih, hone, hlist, or_assoc]

/-! ## The errors of libcurl -/

/-- The error is reported: with `doInput` unset the response has been cut off on purpose. -/
def CurlData.Reports (ctrl : CurlData) (code : CURLcode) : Prop :=
  ¬ (code = .writeError ∧ ctrl.state.doInput = false)

/-- The result of the first transfer that is over and has failed. -/
def failureOf (messages : List CURLMsg) : Option CURLcode :=
  ((messages.takeWhile (·.done)).map (·.result)).find? fun result =>
    decide (result ≠ .ok ∧ result ≠ .abortedByCallback)

theorem raised_handleMultiError (t : Transfer) (code : CURLMcode) :
    (t.modify (·.handleMultiError code)).Raised := by
  unfold Transfer.Raised Transfer.modify CurlData.handleMultiError
  dsimp only
  split
  · rename_i hpending
    exact Option.isSome_iff_ne_none.mp hpending
  · split
    · exact pending_throw _ _
    · exact pending_throw _ _

theorem raised_handleEasyError (t : Transfer) (code : CURLcode) :
    (t.modify (·.handleEasyError code)).Raised ↔ t.Raised ∨ t.ctrl.Reports code := by
  unfold Transfer.Raised Transfer.modify CurlData.handleEasyError CurlData.Reports
  dsimp only
  split
  · rename_i hcut
    simp [hcut]
  · rename_i hcut
    refine iff_of_true ?_ (.inr hcut)
    split
    · rename_i hpending
      exact Option.isSome_iff_ne_none.mp hpending
    · unfold CurlData.throwEasyError
      split <;> exact pending_throw _ _

/-- **The messages of a transfer.** -/
theorem raised_checkResult (t : Transfer) (messages : List CURLMsg) :
    ({ t with ctrl := (t.ctrl.checkResult messages).1 } : Transfer).Raised ↔
      t.Raised ∨ ∃ code, failureOf messages = some code ∧ t.ctrl.Reports code := by
  induction messages with
  | nil => simp [CurlData.checkResult, failureOf, Transfer.Raised]
  | cons msg remaining ih =>
    unfold CurlData.checkResult
    cases hdone : msg.done with
    | false => simp [hdone, failureOf, Transfer.Raised]
    | true =>
      have hskip (hpassed : msg.result = .ok ∨ msg.result = .abortedByCallback) :
          failureOf (msg :: remaining) = failureOf remaining := by
        rcases hpassed with h | h
        · simp [failureOf, hdone, h]
        · simp [failureOf, hdone, h]
      have hfail (hfailed : msg.result ≠ .ok ∧ msg.result ≠ .abortedByCallback) :
          failureOf (msg :: remaining) = some msg.result := by
        simp [failureOf, hdone, hfailed]
      have hlast (hpassed : msg.result = .ok ∨ msg.result = .abortedByCallback) :
          ({ t with ctrl := (if remaining = [] then (t.ctrl, true)
            else t.ctrl.checkResult remaining).1 } : Transfer).Raised ↔
            t.Raised ∨ ∃ code, failureOf (msg :: remaining) = some code ∧ t.ctrl.Reports code := by
        rw [hskip hpassed, ← ih]
        split
        · rename_i hempty
          rw [hempty]
          rfl
        · rfl
      rw [if_neg (ne_false_of_eq_true rfl)]
      split
      · rename_i hresult
        exact hlast (.inr hresult)
      · rename_i hresult
        exact hlast (.inl hresult)
      · rename_i hok haborted
        rw [hfail ⟨haborted, hok⟩]
        exact (raised_handleEasyError t msg.result).trans (by simp)

/-! ## What it means to fail -/

/-- The iteration gets to the wait. -/
structure Pass.Waits (p : Pass) : Prop where
  uninterrupted : p.it.interrupted = false
  runs : ∃ running, p.it.perform.returns = some (.ok, running) ∧ running ≠ 0
  incomplete : p.before.completed p.it = false
  stays : (p.before.checked p.it).ctrl.bails (p.before.checked p.it).rodata = false
  uninterruptedAgain : p.it.interruptedAgain = false

theorem Pass.Accounts.waits {p : Pass} (h : p.Accounts) : p.Waits :=
  ⟨h.uninterrupted, h.runs, h.incomplete, h.stays, h.uninterruptedAgain⟩

/-- The wait comes back with an error. -/
structure Pass.WaitFails (p : Pass) : Prop where
  waits : p.Waits
  positive : 0 < p.it.waitTime p.timer
  error : ∃ result n, p.it.wait = some (result, n) ∧ result ≠ .ok

/-- No descriptor has events, and no time is left. -/
structure Pass.Expires (p : Pass) : Prop where
  accounts : p.Accounts
  quiet : p.it.fdEvents p.timer = 0
  expired : p.left ≤ 0

namespace Attempt

/-- What `curl_multi_perform` answers, if it is called and comes back. -/
def answer : Attempt → Option (CURLMcode × Nat)
  | .unpause _ _ => none
  | .connect _ c => c.perform.returns
  | .pass p => if p.it.interrupted then none else p.it.perform.returns

theorem answer_pass {p : Pass} (h : p.it.interrupted = false) :
    (Attempt.pass p).answer = p.it.perform.returns := if_neg (ne_true_of_eq_false h)

/-- The messages that are looked at behind that answer. -/
def messages (running : Nat) : Attempt → List CURLMsg
  | .unpause _ _ => []
  | .connect _ c => if running = 0 then c.messages else []
  | .pass p => p.it.messages

/-- The handle behind the callbacks. -/
def after (a : Attempt) : Transfer := a.before.invokeAll a.callbacks

/-- **Everything that can fail** in what is asked of libcurl. -/
inductive Fails : Attempt → Prop
  | callback {a : Attempt} : a.before.raisedBy a.callbacks ≠ [] → Fails a
  | unpause {before : Transfer} {pause : Pause} {code : CURLcode} :
      pause.returns = some code → code ≠ .ok →
      (before.invokeAll pause.callbacks).ctrl.Reports code → Fails (.unpause before pause)
  | perform {a : Attempt} {result : CURLMcode} {running : Nat} :
      a.answer = some (result, running) → result ≠ .ok → Fails a
  | transfer {a : Attempt} {running : Nat} {code : CURLcode} :
      a.answer = some (.ok, running) → failureOf (a.messages running) = some code →
      a.after.ctrl.Reports code → Fails a
  | wait {p : Pass} : p.WaitFails → Fails (.pass p)
  | timeout {p : Pass} : p.Expires → Fails (.pass p)

end Attempt

/-- A call that gives up before it asks libcurl for anything. -/
def Call.FailsAtOnce : Call → Transfer → Prop
  | .nativeConfigure c, _ => c.urlBufferOk = false
  | .write _, t => t.ctrl.goalReached = true
  | _, _ => False

/-! ## The loop -/

section Loop
variable {p : Pass} {t t' : Transfer} {flow : Flow}

theorem raised_checked : (p.before.checked p.it).Raised ↔
    (p.before.Raised ∨ p.before.raisedBy p.it.perform.callbacks ≠ []) ∨
      ∃ code, failureOf p.it.messages = some code ∧
        (p.before.invokeAll p.it.perform.callbacks).ctrl.Reports code := by
  rw [← raised_invokeAll]
  exact raised_checkResult (p.before.invokeAll p.it.perform.callbacks) p.it.messages

/-- An iteration that has not come to an error of the multi interface or to the end of its
time has failed if a callback has, or the transfer. -/
theorem raised_checked_iff_fails {running : Nat} (hinterrupted : p.it.interrupted = false)
    (hreturns : p.it.perform.returns = some (.ok, running)) (hwait : ¬ p.WaitFails)
    (htime : ¬ p.Expires) :
    (p.before.checked p.it).Raised ↔ p.before.Raised ∨ (Attempt.pass p).Fails := by
  have hmade : (Attempt.pass p).callbacks = p.it.perform.callbacks :=
    if_neg (ne_true_of_eq_false hinterrupted)
  have hafter : (Attempt.pass p).after = p.before.invokeAll p.it.perform.callbacks :=
    congrArg (p.before.invokeAll ·) hmade
  have hanswer : (Attempt.pass p).answer = some (.ok, running) :=
    (Attempt.answer_pass hinterrupted).trans hreturns
  rw [raised_checked]
  constructor
  · rintro ((hbefore | hcallback) | ⟨code, hcode, hreports⟩)
    · exact .inl hbefore
    · exact .inr (.callback (hmade ▸ hcallback))
    · exact .inr (.transfer hanswer hcode (hafter ▸ hreports))
  · rintro (hbefore | hfails)
    · exact .inl (.inl hbefore)
    · cases hfails with
      | callback hcallback => exact .inl (.inr (hmade ▸ hcallback))
      | perform herror hne =>
        rw [hanswer] at herror
        cases herror
        exact absurd rfl hne
      | transfer hok hcode hreports => exact .inr ⟨_, hcode, hafter ▸ hreports⟩
      | wait hfails => exact absurd hfails hwait
      | timeout hexpires => exact absurd hexpires htime

/-- **One iteration** leaves an exception exactly if it has found one or has failed. -/
theorem raised_iterate (h : p.run = (t', some flow)) :
    t'.Raised ↔ p.before.Raised ∨ (Attempt.pass p).Fails := by
  have hgone (hnot : ¬ p.Waits) : ¬ p.WaitFails ∧ ¬ p.Expires :=
    ⟨fun h => hnot h.waits, fun h => hnot h.accounts.waits⟩
  have hwaited : (((p.before.checked p.it).waited p.it p.timer).Raised ↔
      (p.before.checked p.it).Raised) := by
    unfold Transfer.waited
    split
    · rfl
    · rfl
  cases Iterated.of_iterate h with
  | interrupted hinterrupted =>
    have hmade : (Attempt.pass p).callbacks = [] := if_pos hinterrupted
    have hanswer : (Attempt.pass p).answer = none := if_pos hinterrupted
    refine ⟨.inl, fun hraised => hraised.resolve_right fun hfails => ?_⟩
    cases hfails with
    | callback hcallback => rw [hmade] at hcallback; exact hcallback rfl
    | perform herror _ => rw [hanswer] at herror; cases herror
    | transfer hok _ _ => rw [hanswer] at hok; cases hok
    | wait hfails => rw [hfails.waits.uninterrupted] at hinterrupted; cases hinterrupted
    | timeout hexpires => rw [hexpires.accounts.uninterrupted] at hinterrupted; cases hinterrupted
  | multiError hinterrupted hreturns hresult =>
    exact iff_of_true (raised_handleMultiError _ _)
      (.inr (.perform ((Attempt.answer_pass hinterrupted).trans hreturns) hresult))
  | completed hinterrupted hreturns hcompleted =>
    have hnot := hgone fun hwaits => by rw [hwaits.incomplete] at hcompleted; cases hcompleted
    exact raised_checked_iff_fails hinterrupted hreturns hnot.1 hnot.2
  | bails hinterrupted hreturns _ hbails =>
    have hnot := hgone fun hwaits => by rw [hwaits.stays] at hbails; cases hbails
    exact raised_checked_iff_fails hinterrupted hreturns hnot.1 hnot.2
  | idle hinterrupted hreturns _ _ =>
    have hnot := hgone fun hwaits => by
      obtain ⟨running, hruns, hne⟩ := hwaits.runs
      rw [hreturns] at hruns
      cases hruns
      exact hne rfl
    exact raised_checked_iff_fails hinterrupted hreturns hnot.1 hnot.2
  | interruptedAgain hinterrupted hreturns _ _ _ hagain =>
    have hnot := hgone fun hwaits => by rw [hwaits.uninterruptedAgain] at hagain; cases hagain
    exact raised_checked_iff_fails hinterrupted hreturns hnot.1 hnot.2
  | waits hinterrupted hreturns hcompleted hbails hrunning hagain hawaited =>
    have hwaits : p.Waits := ⟨hinterrupted, ⟨_, hreturns, hrunning⟩, hcompleted, hbails, hagain⟩
    have hpassed (hpast : p.it.PastWait p.timer) : ¬ p.WaitFails := fun hfails => by
      obtain ⟨result, n, hresult, hne⟩ := hfails.error
      obtain ⟨m, hok⟩ := hpast hfails.positive
      rw [hok] at hresult
      cases hresult
      exact hne rfl
    cases hawaited with
    | waitError hpositive hwait hresult =>
      exact iff_of_true (raised_handleMultiError _ _)
        (.inr (.wait ⟨hwaits, hpositive, _, _, hwait, hresult⟩))
    | rearmed hpast hevents =>
      rw [hwaited]
      exact raised_checked_iff_fails hinterrupted hreturns (hpassed hpast)
        fun hexpires => hevents hexpires.quiet
    | timedOut hpast hevents hleft =>
      refine iff_of_true (pending_throw _ _) (.inr (.timeout ⟨?_, hevents, hleft⟩))
      exact ⟨hinterrupted, ⟨_, hreturns, hrunning⟩, hcompleted, hbails, hagain, hpast⟩
    | counted hpast hevents hleft =>
      rw [hwaited]
      exact raised_checked_iff_fails hinterrupted hreturns (hpassed hpast)
        fun hexpires => absurd hexpires.expired (Int.not_le.mpr hleft)

/-- **The loop**: so does any number of iterations. -/
theorem raised_iterateAll (iterations : List Iteration) {timer : Timer} {ended : Bool}
    (hrun : Transfer.iterateAll iterations timer t = (t', some ended)) :
    t'.Raised ↔
      t.Raised ∨ ∃ p ∈ Transfer.passes iterations timer t, (Attempt.pass p).Fails := by
  induction iterations generalizing timer t with
  | nil => cases hrun
  | cons it iterations ih =>
    obtain ⟨s, flow, hiterate, hflow⟩ := bind_eq_some hrun
    have hone := raised_iterate (p := ⟨it, timer, t⟩) hiterate
    cases flow with
    | stop result =>
      cases hflow
      rw [hone, Transfer.passes, hiterate]
      simp
    | again timer' =>
      rw [ih hflow, hone, Transfer.passes_again hiterate]
      simp [or_assoc]

theorem raised_curlPerform {loop : Loop} {ended : Bool}
    (hrun : Transfer.curlPerform loop t = (t', some ended)) :
    t'.Raised ↔ t.Raised ∨ ∃ p ∈ Transfer.loopPasses loop t, (Attempt.pass p).Fails :=
  raised_iterateAll _ hrun

end Loop

/-! ## The methods -/

section Methods
variable {t s s' : Transfer}

theorem fails_unpause {before : Transfer} {pause : Pause} {code : CURLcode}
    (hreturns : pause.returns = some code) :
    (Attempt.unpause before pause).Fails ↔ before.raisedBy pause.callbacks ≠ [] ∨
      (code ≠ .ok ∧ (before.invokeAll pause.callbacks).ctrl.Reports code) := by
  constructor
  · intro hfails
    cases hfails with
    | callback hcallback => exact .inl hcallback
    | unpause hanswer hne hreports =>
      rw [hreturns] at hanswer
      cases hanswer
      exact .inr ⟨hne, hreports⟩
    | perform herror _ => cases herror
    | transfer hok _ _ => cases hok
  · rintro (hcallback | ⟨hne, hreports⟩)
    · exact .callback hcallback
    · exact .unpause hreturns hne hreports

/-- **Unpausing**, if the direction is paused. -/
theorem raised_resume {flag : StateBits → Bool} {clear : CurlData → CurlData} {pause : Pause}
    {code : CURLcode} (hrun : Transfer.resume flag clear pause t = (s, some code))
    (hclear : ∀ ctrl : CurlData, (clear ctrl).env = ctrl.env) :
    (if code = .ok then s else s.modify (·.handleEasyError code)).Raised ↔
      t.Raised ∨ (flag t.ctrl.state = true ∧
        (Attempt.unpause (t.unpaused clear) pause).Fails) := by
  rw [Transfer.resume_eq] at hrun
  by_cases hflag : flag t.ctrl.state = true
  · rw [if_pos hflag] at hrun
    have hs : s = (t.unpaused clear).invokeAll pause.callbacks := (congrArg Prod.fst hrun).symm
    have hreturns : pause.returns = some code := congrArg Prod.snd hrun
    have hbefore : (t.unpaused clear).Raised ↔ t.Raised := by
      show (clear t.ctrl).env.pending ≠ none ↔ _
      rw [hclear]
      rfl
    rw [fails_unpause hreturns, ← hs]
    have hraised : s.Raised ↔ t.Raised ∨ (t.unpaused clear).raisedBy pause.callbacks ≠ [] := by
      rw [hs, raised_invokeAll, hbefore]
    split
    · rename_i hok
      rw [hraised]
      simp [hflag, hok]
    · rename_i herror
      rw [raised_handleEasyError, hraised]
      simp [hflag, herror, or_assoc]
  · rw [if_neg hflag] at hrun
    cases hrun
    rw [if_pos rfl]
    simp [hflag]

/-- **A method that goes on with a direction** leaves an exception exactly if it has failed. -/
theorem Resuming.Exit.raised {m : Resuming} (h : m.Exit s')
    (hclear : ∀ ctrl : CurlData, (m.clear ctrl).env = ctrl.env)
    (hbegins : m.begins.ctrl.env = ⟨none⟩) :
    s'.Raised ↔ ∃ a, m.Attempts a ∧ a.Fails := by
  have hnone : ¬ m.begins.Raised := by
    unfold Transfer.Raised
    rw [hbegins]
    exact fun h => h rfl
  have hresumed {s : Transfer} {code : CURLcode} (h : m.resume m.begins = (s, some code)) :
      (if code = .ok then s else s.modify (·.handleEasyError code)).Raised ↔
        (m.flag m.begins.ctrl.state = true ∧
          (Attempt.unpause (m.begins.unpaused m.clear) m.pause).Fails) :=
    (raised_resume h hclear).trans (or_iff_right hnone)
  -- without the loop, unpausing is all that is asked for
  have hleaves {s s' : Transfer} {code : CURLcode} (h : m.resume m.begins = (s, some code))
      (hs' : s' = if code = .ok then s else s.modify (·.handleEasyError code))
      (hnot : ¬ (code = .ok ∧ m.enters s)) : s'.Raised ↔ ∃ a, m.Attempts a ∧ a.Fails := by
    rw [hs', hresumed h]
    constructor
    · rintro ⟨hflag, hfails⟩
      exact ⟨_, .inl ⟨hflag, rfl⟩, hfails⟩
    · rintro ⟨a, ⟨hflag, rfl⟩ | ⟨s₁, p, hs₁, henters, -, -⟩, hfails⟩
      · exact ⟨hflag, hfails⟩
      · cases h.symm.trans hs₁
        exact absurd ⟨rfl, henters⟩ hnot
  cases h with
  | refused h hcode => exact hleaves h (if_neg hcode).symm fun hok => hcode hok.1
  | stays h hnot => exact hleaves h rfl fun hok => hnot hok.2
  | loops h henters hloop =>
    rename_i s ended
    have hs : s.Raised ↔ _ := hresumed h
    rw [raised_curlPerform hloop, hs]
    constructor
    · rintro (⟨hflag, hfails⟩ | ⟨p, hp, hfails⟩)
      · exact ⟨_, .inl ⟨hflag, rfl⟩, hfails⟩
      · exact ⟨_, .inr ⟨s, p, h, henters, hp, rfl⟩, hfails⟩
    · rintro ⟨a, ⟨hflag, rfl⟩ | ⟨s₁, p, hs₁, -, hp, rfl⟩, hfails⟩
      · exact .inl ⟨hflag, hfails⟩
      · cases h.symm.trans hs₁
        exact .inr ⟨p, hp, hfails⟩

theorem raised_hasEnded {running : Nat} {messages : List CURLMsg} {completed : Bool}
    (h : Transfer.hasEnded running messages s = (s', some completed)) :
    s'.Raised ↔ s.Raised ∨ ∃ code,
      failureOf (if running = 0 then messages else []) = some code ∧ s.ctrl.Reports code := by
  unfold Transfer.hasEnded at h
  split at h
  · rename_i hrunning
    cases h
    rw [if_pos hrunning]
    exact raised_checkResult s messages
  · rename_i hrunning
    cases h
    rw [if_neg hrunning]
    simp [failureOf]

theorem fails_connect {c : Configure} {running : Nat}
    (hreturns : c.perform.returns = some (.ok, running)) :
    (Attempt.connect t c).Fails ↔ t.raisedBy c.perform.callbacks ≠ [] ∨
      ∃ code, failureOf (if running = 0 then c.messages else []) = some code ∧
        (t.invokeAll c.perform.callbacks).ctrl.Reports code := by
  constructor
  · intro hfails
    cases hfails with
    | callback hcallback => exact .inl hcallback
    | perform herror hne =>
      cases hreturns.symm.trans herror
      exact absurd rfl hne
    | transfer hok hcode hreports =>
      cases hreturns.symm.trans hok
      exact .inr ⟨_, hcode, hreports⟩
  · rintro (hcallback | ⟨code, hcode, hreports⟩)
    · exact .callback hcallback
    · exact .transfer hreturns hcode hreports

/-- **Connecting** leaves an exception exactly if it has failed. -/
theorem ConnectExit.raised {c : Configure} (hurl : c.urlBufferOk = true)
    (h : ConnectExit c (c.connecting t) s') :
    s'.Raised ↔ ∃ a, Attempted (.nativeConfigure c) t a ∧ a.Fails := by
  have hnone : ¬ (c.connecting t).Raised := by
    unfold Transfer.Raised
    rw [(connecting_begins c t).1]
    exact fun h => h rfl
  have hchecked {s : Transfer} {running : Nat} {completed : Bool}
      (hreturns : c.perform.returns = some (.ok, running))
      (hended : Transfer.hasEnded running c.messages
        ((c.connecting t).invokeAll c.perform.callbacks) = (s, some completed)) :
      s.Raised ↔ (Attempt.connect (c.connecting t) c).Fails := by
    rw [raised_hasEnded hended, raised_invokeAll, fails_connect hreturns, or_iff_right hnone]
  cases h with
  | interrupted hinterrupted =>
    refine iff_of_false hnone ?_
    rintro ⟨a, ha, -⟩
    cases ha with
    | connect _ h => rw [hinterrupted] at h; cases h
    | connected _ h => rw [hinterrupted] at h; cases h
  | multiError hinterrupted hreturns hresult =>
    exact iff_of_true (raised_handleMultiError _ _)
      ⟨_, .connect hurl hinterrupted, .perform hreturns hresult⟩
  | completed hinterrupted hreturns hended =>
    rw [hchecked hreturns hended]
    refine ⟨fun hfails => ⟨_, .connect hurl hinterrupted, hfails⟩, ?_⟩
    rintro ⟨a, ha, hfails⟩
    cases ha with
    | connect => exact hfails
    | connected _ _ hok hagain _ =>
      cases hreturns.symm.trans hok
      cases hended.symm.trans hagain
  | looped hinterrupted hreturns hended hloop =>
    rw [raised_curlPerform hloop, hchecked hreturns hended]
    constructor
    · rintro (hfails | ⟨p, hp, hfails⟩)
      · exact ⟨_, .connect hurl hinterrupted, hfails⟩
      · exact ⟨_, .connected hurl hinterrupted hreturns hended hp, hfails⟩
    · rintro ⟨a, ha, hfails⟩
      cases ha with
      | connect => exact .inl hfails
      | connected _ _ hok hagain hp =>
        cases hreturns.symm.trans hok
        cases hended.symm.trans hagain
        exact .inr ⟨_, hp, hfails⟩

end Methods

/-! ## Every call -/

/-- **Failures are reported, and nothing else is.**  A method that is declared to throw an
`IOException` comes back with an exception exactly if another thread is in a method of the
same object, it gives up at once, or something that it has asked of libcurl has failed:
wherever in the run that was, and whatever libcurl does. -/
theorem pending_iff {call : Call} {t t' : Transfer} {returned : Returned}
    (hcall : call.throwsIOException = true) (hrun : call.run t = (t', some returned)) :
    t'.ctrl.env.pending ≠ none ↔
      t.ctrl.busy = true ∨ call.FailsAtOnce t ∨ ∃ a, Attempted call t a ∧ a.Fails := by
  cases hbusy : t.ctrl.busy with
  | true =>
    obtain ⟨returned', htaken⟩ := call.run_taken hbusy
    cases hrun.symm.trans htaken
    exact iff_of_true nofun (.inl rfl)
  | false =>
    rw [or_iff_right Bool.false_ne_true]
    cases call with
    | nativeConfigure c =>
      rcases exit_of_nativeConfigure hbusy hrun with ⟨hurl, henv⟩ | ⟨hurl, s, hexit, henv⟩
      · rw [henv]
        exact iff_of_true nofun (.inl hurl)
      · have hnot : ¬ (Call.nativeConfigure c).FailsAtOnce t := ne_false_of_eq_true hurl
        rw [henv, or_iff_right hnot]
        exact hexit.raised hurl
    | read r =>
      obtain ⟨s, hexit, henv⟩ := exit_of_read hbusy hrun
      have hraised := hexit.raised (fun _ => rfl) rfl
      have hnot : ¬ (Call.read r).FailsAtOnce t := id
      simp only [← attempted_read] at hraised
      rw [henv, or_iff_right hnot]
      exact hraised
    | write w =>
      cases hgoal : t.ctrl.goalReached with
      | false =>
        obtain ⟨s, hexit, henv⟩ := exit_of_write hbusy hgoal hrun
        have hraised := hexit.raised (fun _ => rfl) rfl
        have hnot : ¬ (Call.write w).FailsAtOnce t := ne_true_of_eq_false hgoal
        simp only [← attempted_write hgoal] at hraised
        rw [henv, or_iff_right hnot]
        exact hraised
      | true =>
        refine iff_of_true ?_ (.inl hgoal)
        rw [Call.run, Transfer.write_closed hbusy hgoal] at hrun
        cases hrun
        exact pending_throw _ _
    | closeOutput c =>
      obtain ⟨s, hexit, henv⟩ := exit_of_closeOutput hbusy hrun
      have hraised := hexit.raised (fun _ => rfl) rfl
      have hnot : ¬ (Call.closeOutput c).FailsAtOnce t := id
      simp only [← attempted_closeOutput] at hraised
      rw [henv, or_iff_right hnot]
      exact hraised
    | _ => cases hcall

/-- The `read` whose connection is reset has failed. -/
theorem pending_iff_readReset :
    ∃ a, Attempted (.read readReset) (downloading []) a ∧ a.Fails :=
  (((@pending_iff (.read readReset) (downloading []) _ _ rfl rfl).mp nofun).resolve_left
    nofun).resolve_left id

end Chttpc
