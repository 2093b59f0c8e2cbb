import Mathlib.Data.List.Infix
import Chttpc.LoopRuns

/-!
# The timeouts of `curlPerform`

An iteration that finds no events takes the time since the last reading of the clock
off the timeout.  Seconds and nanoseconds are subtracted by hand, and the nanoseconds
count only if there is a borrow: `accounted` is what is taken off, in milliseconds.
-/

namespace Chttpc
open Program

/-! ## Readings of the clock -/

namespace Timespec

/-- What `clock_gettime` fills in. -/
def Valid (ts : Timespec) : Prop := 0 ≤ ts.nsec ∧ ts.nsec < 1000000000

/-- The reading, in nanoseconds. -/
def ns (ts : Timespec) : Int := ts.sec * 1000000000 + ts.nsec

end Timespec

/-- The readings of `CLOCK_MONOTONIC`, in the order in which they are taken. -/
structure Readings (readings : List Timespec) : Prop where
  valid : ∀ ts ∈ readings, ts.Valid
  sorted : readings.Pairwise fun earlier later => earlier.ns ≤ later.ns

theorem Readings.tail {ts : Timespec} {readings : List Timespec} (h : Readings (ts :: readings)) :
    Readings readings :=
  ⟨fun later hmem => h.valid later (List.mem_cons_of_mem _ hmem), h.sorted.of_cons⟩

/-- The milliseconds that are taken off for the time between two readings. -/
def accounted (timestamp current : Timespec) : Int :=
  let diff := current.nsec - timestamp.nsec
  (current.sec - timestamp.sec) * 1000 -
    if diff < 0 then 1000 - (diff + 1000000000) / 1000000 else 0

theorem toInt32_bounds (n : Int) : -2 ^ 31 ≤ toInt32 n ∧ toInt32 n < 2 ^ 31 := by
  unfold toInt32
  rw [Int.bmod_def]
  omega

theorem toInt32_of_bounds {n : Int} (hlow : -2 ^ 31 ≤ n) (hhigh : n < 2 ^ 31) : toInt32 n = n := by
  unfold toInt32
  rw [Int.bmod_def]
  omega

section Readings
variable {timestamp current : Timespec}

/-- All the conversions to `int` on the way amount to one. -/
theorem subtractElapsed_eq (timeout : Int) (hstart : timestamp.Valid) (hend : current.Valid) :
    subtractElapsed timeout timestamp current =
      toInt32 (timeout - accounted timestamp current) := by
  obtain ⟨hstart₀, hstart₁⟩ := hstart
  obtain ⟨hend₀, hend₁⟩ := hend
  have hdiff : toInt32 (current.nsec - timestamp.nsec) = current.nsec - timestamp.nsec :=
    toInt32_of_bounds (by omega) (by omega)
  unfold subtractElapsed accounted
  dsimp only
  rw [hdiff]
  by_cases hborrow : current.nsec - timestamp.nsec < 0
  · rw [if_pos hborrow, if_pos hborrow, Int.tdiv_eq_ediv_of_nonneg (by omega)]
    unfold toInt32
    rw [Int.bmod_add_bmod, Int.bmod_sub_bmod]
    congr 1
    omega
  · rw [if_neg hborrow, if_neg hborrow, Int.sub_zero]

theorem accounted_nonneg (hstart : timestamp.Valid) (hend : current.Valid)
    (h : timestamp.ns ≤ current.ns) : 0 ≤ accounted timestamp current := by
  obtain ⟨hstart₀, hstart₁⟩ := hstart
  obtain ⟨hend₀, hend₁⟩ := hend
  unfold Timespec.ns at h
  unfold accounted
  dsimp only
  split <;> omega

/-- Never more is taken off than has passed. -/
theorem accounted_le (hstart : timestamp.Valid) (hend : current.Valid) :
    1000000 * accounted timestamp current ≤ current.ns - timestamp.ns := by
  obtain ⟨hstart₀, hstart₁⟩ := hstart
  obtain ⟨hend₀, hend₁⟩ := hend
  unfold accounted Timespec.ns
  dsimp only
  split <;> omega

/-- Less than a millisecond is missed exactly if the nanoseconds do not get ahead by one. -/
theorem accounted_lt_iff (hstart : timestamp.Valid) (hend : current.Valid) :
    current.ns - timestamp.ns < 1000000 * accounted timestamp current + 1000000 ↔
      current.nsec - timestamp.nsec < 1000000 := by
  obtain ⟨hstart₀, hstart₁⟩ := hstart
  obtain ⟨hend₀, hend₁⟩ := hend
  unfold accounted Timespec.ns
  dsimp only
  split <;> omega

end Readings

/-! ## The account of an iteration -/

namespace Pass
variable (p : Pass)

/-- The state behind the wait. -/
def behind : Transfer := (p.before.checked p.it).waited p.it p.timer

/-- The iteration gets to the account of the time. -/
structure Accounts : Prop where
  uninterrupted : p.it.interrupted = false
  runs : ∃ running, p.it.perform.returns = some (.ok, running) ∧ running ≠ 0
  incomplete : p.before.completed p.it = false
  stays : (p.before.checked p.it).ctrl.bails (p.before.checked p.it).rodata = false
  uninterruptedAgain : p.it.interruptedAgain = false
  pastWait : p.it.PastWait p.timer

/-- What is left of the timeout. -/
def left : Int := subtractElapsed p.timer.timeout p.timer.timestamp p.it.clock

/-- The iteration ends the loop with the exception of `throwTimeout`. -/
def TimesOut : Prop :=
  p.Accounts ∧
    p.run = (p.behind.modify fun ctrl => ctrl.throwTimeout ctrl.headerPairCount, some (.stop true))

/-- The iteration goes on with the full timeout. -/
def Rearms : Prop :=
  ∃ t' fdEvents, p.run = (t', some (.again ⟨t'.ctrl.fullTimeout, p.timer.timestamp, fdEvents⟩)) ∧
    fdEvents ≠ 0

/-- The iteration has waited, and has been told of descriptors with events. -/
def Reports : Prop := 0 < p.it.waitTime p.timer ∧ ∃ n, p.it.wait = some (.ok, n) ∧ n ≠ 0

variable {p}

theorem Accounts.run (h : p.Accounts) :
    p.run = Transfer.account p.it { p.timer with fdEvents := p.it.fdEvents p.timer } p.behind := by
  obtain ⟨running, hreturns, hrunning⟩ := h.runs
  unfold Pass.run Transfer.iterate
  rw [if_neg (by rw [h.uninterrupted]; decide),
    bind_some (show Transfer.curlMultiPerform p.it.perform p.before =
      (p.before.invokeAll p.it.perform.callbacks, some (.ok, running)) by
        rw [Transfer.curlMultiPerform, hreturns]; rfl)]
  dsimp only
  rw [if_neg (not_not.mpr rfl), bind_some (show Transfer.checkResult p.it.messages
    (p.before.invokeAll p.it.perform.callbacks) = (p.before.checked p.it,
      some (p.before.completed p.it)) from rfl), h.incomplete, if_neg (by decide),
    bind_some (read_apply _ _), h.stays, if_neg (by decide), if_neg hrunning,
    h.uninterruptedAgain, if_neg (by decide)]
  unfold Transfer.await behind
  change (if 0 < p.it.waitTime p.timer then _ else _ : Program Transfer Flow) _ = _
  by_cases hwait : 0 < p.it.waitTime p.timer
  · obtain ⟨n, hn⟩ := h.pastWait hwait
    rw [if_pos hwait, bind_some (update_apply _ _), hn, bind_some (call_apply _ _ _)]
    dsimp only
    rw [if_neg (not_not.mpr rfl), Iteration.fdEvents, if_pos hwait, hn, Transfer.waited,
      if_pos hwait]
    rfl
  · rw [if_neg hwait, Iteration.fdEvents, if_neg hwait, Transfer.waited, if_neg hwait]

theorem Accounts.run_rearmed (h : p.Accounts) (hevents : p.it.fdEvents p.timer ≠ 0) :
    p.run = (p.behind, some (.again ⟨p.behind.ctrl.fullTimeout, p.timer.timestamp,
      p.it.fdEvents p.timer⟩)) := by
  rw [h.run, Transfer.account, if_pos hevents]
  rfl

theorem Accounts.timesOut (h : p.Accounts) (hevents : p.it.fdEvents p.timer = 0)
    (hleft : p.left ≤ 0) : p.TimesOut := by
  refine ⟨h, ?_⟩
  rw [h.run, Transfer.account, if_neg (not_not.mpr hevents)]
  dsimp only
  rw [if_pos (show subtractElapsed _ _ _ ≤ 0 from hleft)]
  rfl

theorem Accounts.run_counted (h : p.Accounts) (hevents : p.it.fdEvents p.timer = 0)
    (hleft : 0 < p.left) : p.run = (p.behind, some (.again ⟨p.left, p.it.clock, 0⟩)) := by
  rw [h.run, Transfer.account, if_neg (not_not.mpr hevents)]
  dsimp only
  rw [if_neg (show ¬subtractElapsed _ _ _ ≤ 0 from Int.not_le.mpr hleft), hevents]
  rfl

/-- **An iteration that goes on has accounted for its time**, one way or the other. -/
theorem of_run_again {t' : Transfer} {timer' : Timer} (h : p.run = (t', some (.again timer'))) :
    p.Accounts ∧
      (p.it.fdEvents p.timer ≠ 0 ∧ p.Rearms ∨
        p.it.fdEvents p.timer = 0 ∧ 0 < p.left ∧ timer' = ⟨p.left, p.it.clock, 0⟩) := by
  cases Iterated.of_iterate h with
  | waits hinterrupted hreturns hcompleted hbails hrunning hagain hawaited =>
    have haccounts (hpast : p.it.PastWait p.timer) : p.Accounts :=
      ⟨hinterrupted, ⟨_, hreturns, hrunning⟩, hcompleted, hbails, hagain, hpast⟩
    cases hawaited with
    | rearmed hpast hevents =>
      exact ⟨haccounts hpast, .inl ⟨hevents, _, _, (haccounts hpast).run_rearmed hevents, hevents⟩⟩
    | counted hpast hevents hleft => exact ⟨haccounts hpast, .inr ⟨hevents, hleft, rfl⟩⟩

theorem TimesOut.left_le (h : p.TimesOut) (hevents : p.it.fdEvents p.timer = 0) : p.left ≤ 0 := by
  by_contra hleft
  have hrun := h.1.run_counted hevents (Int.not_le.mp hleft)
  rw [h.2] at hrun
  cases congrArg Prod.snd hrun

theorem Reports.fdEvents_ne (h : p.Reports) : p.it.fdEvents p.timer ≠ 0 := by
  obtain ⟨hwait, n, hn, hne⟩ := h
  rw [Iteration.fdEvents, if_pos hwait, hn]
  exact hne

theorem Rearms.accounts (h : p.Rearms) : p.Accounts ∧ p.it.fdEvents p.timer ≠ 0 := by
  obtain ⟨t', fdEvents, hrun, hevents⟩ := h
  obtain ⟨haccounts, ⟨hne, -⟩ | ⟨-, -, htimer⟩⟩ := of_run_again hrun
  · exact ⟨haccounts, hne⟩
  · exact absurd (Timer.mk.inj htimer).2.2 hevents

end Pass

/-! ## Iterations without events -/

/-- The iteration takes the time off to less than a millisecond, and the difference is
an `int`. -/
def Pass.KeepsTime (p : Pass) : Prop :=
  p.it.clock.nsec - p.timer.timestamp.nsec < 1000000 ∧
    accounted p.timer.timestamp p.it.clock ≤ p.timer.timeout + 2 ^ 31

/-- The passes of a loop that begins with the timeout and the reading of `timer` measure
the time: it is taken off, over any of them in a row, to less than a millisecond for each;
the first to find that the time is over, with that rounding, times out, and none
does so early. -/
structure TimeoutAccounted (timer : Timer) (passes : List Pass) : Prop where
  accurate : ∀ stretch p q, stretch <:+: passes → stretch.head? = some p →
    stretch.getLast? = some q → q.Accounts →
      (1000000 * (p.timer.timeout - q.left) -
        (q.it.clock.ns - p.timer.timestamp.ns)).natAbs < 1000000 * stretch.length
  prompt : ∀ stretch q, stretch <+: passes → stretch.getLast? = some q → q.Accounts →
    1000000 * (timer.timeout + stretch.length) ≤ q.it.clock.ns - timer.timestamp.ns → q.TimesOut
  patient : ∀ q ∈ passes, q.TimesOut →
    1000000 * (timer.timeout - 1) ≤ q.it.clock.ns - timer.timestamp.ns

/-- What holds of a pass of such a loop. -/
structure Pass.Timely (p : Pass) : Prop where
  positive : 0 < p.timer.timeout
  int : p.timer.timeout < 2 ^ 31
  readings : Readings [p.timer.timestamp, p.it.clock]
  quiet : p.Accounts → p.it.fdEvents p.timer = 0

namespace Pass.Timely
variable {p q : Pass}

theorem valid (h : p.Timely) : p.timer.timestamp.Valid ∧ p.it.clock.Valid :=
  ⟨h.readings.valid _ (by simp), h.readings.valid _ (by simp)⟩

theorem left_eq (h : p.Timely) :
    p.left = toInt32 (p.timer.timeout - accounted p.timer.timestamp p.it.clock) :=
  subtractElapsed_eq _ h.valid.1 h.valid.2

theorem accounted_nonneg (h : p.Timely) : 0 ≤ accounted p.timer.timestamp p.it.clock :=
  Chttpc.accounted_nonneg h.valid.1 h.valid.2
    (List.rel_of_pairwise_cons h.readings.sorted List.mem_cons_self)

/-- No more is taken off than has passed. -/
theorem le_left (h : p.Timely) :
    1000000 * (p.timer.timeout - p.left) ≤ p.it.clock.ns - p.timer.timestamp.ns := by
  have hle := accounted_le h.valid.1 h.valid.2
  have hnonneg := h.accounted_nonneg
  have hint := h.int
  have hge : p.timer.timeout - accounted p.timer.timestamp p.it.clock ≤ p.left := by
    rw [h.left_eq]
    unfold toInt32
    rw [Int.bmod_def]
    omega
  omega

/-- An iteration takes its time off to less than a millisecond exactly if it keeps the
time. -/
theorem keepsTime_iff (h : p.Timely) :
    p.it.clock.ns - p.timer.timestamp.ns < 1000000 * (p.timer.timeout - p.left) + 1000000 ↔
      p.KeepsTime := by
  have hle := accounted_le h.valid.1 h.valid.2
  have hround := accounted_lt_iff h.valid.1 h.valid.2
  have hnonneg := h.accounted_nonneg
  have hint := h.int
  have hpositive := h.positive
  unfold Pass.KeepsTime
  rw [h.left_eq, ← hround]
  generalize accounted p.timer.timestamp p.it.clock = taken at *
  unfold toInt32
  rw [Int.bmod_def]
  omega

/-- The next pass takes over where this one has stopped. -/
theorem next (h : p.Timely) (hrun : p.run = (q.before, some (.again q.timer))) :
    p.Accounts ∧ q.timer = ⟨p.left, p.it.clock, 0⟩ ∧ 0 < p.left := by
  obtain ⟨haccounts, ⟨hevents, -⟩ | ⟨-, hleft, htimer⟩⟩ := Pass.of_run_again hrun
  · exact absurd (h.quiet haccounts) hevents
  · exact ⟨haccounts, htimer, hleft⟩

end Pass.Timely

theorem timely_passes : ∀ (iterations : List Iteration) (timer : Timer) (t : Transfer),
    0 < timer.timeout → timer.timeout < 2 ^ 31 →
    Readings (timer.timestamp :: iterations.map (·.clock)) →
    (∀ p ∈ Transfer.passes iterations timer t, p.Accounts → p.it.fdEvents p.timer = 0) →
      ∀ p ∈ Transfer.passes iterations timer t, p.Timely
  | [], _, _, _, _, _, _, _, hp => nomatch hp
  | it :: iterations, timer, t, hpositive, hint, hreadings, hquiet, p, hp => by
      have hhead : (Pass.mk it timer t).Timely := by
        refine ⟨hpositive, hint, ⟨fun ts hts => hreadings.valid ts ?_, ?_⟩,
          hquiet _ (by rw [Transfer.passes]; exact List.mem_cons_self)⟩
        · exact List.cons_subset_cons _ (List.cons_subset_cons _ (List.nil_subset _)) hts
        · exact hreadings.sorted.sublist (.cons_cons _ (.cons_cons _ (List.nil_sublist _)))
      rw [Transfer.passes] at hp hquiet
      rcases List.mem_cons.mp hp with rfl | hp
      · exact hhead
      split at hp
      · rename_i t' timer' hrun
        have hnext := hhead.next (q := ⟨it, timer', t'⟩) hrun
        dsimp only at hnext
        obtain ⟨-, rfl, hleft⟩ := hnext
        rw [hrun] at hquiet
        exact timely_passes iterations ⟨Pass.left ⟨it, timer, t⟩, it.clock, 0⟩ t' hleft
          (hhead.left_eq ▸ (toInt32_bounds _).2) hreadings.tail
          (fun q hq => hquiet q (List.mem_cons_of_mem _ hq)) p hp
      · cases hp

section Stretch
variable {p q : Pass} {rest stretch : List Pass}

/-- The time of the passes in a row is taken off in one piece with the rounding of each. -/
theorem stretch_bounds : ∀ {rest : List Pass} {p : Pass},
    (p :: rest).IsChain (fun pass next => pass.run = (next.before, some (.again next.timer))) →
    (∀ r ∈ p :: rest, r.Timely) → (p :: rest).getLast? = some q → q.Accounts →
      1000000 * (p.timer.timeout - q.left) ≤ q.it.clock.ns - p.timer.timestamp.ns ∧
        ((∀ r ∈ p :: rest, r.Accounts → r.KeepsTime) → q.it.clock.ns - p.timer.timestamp.ns <
          1000000 * (p.timer.timeout - q.left) + 1000000 * (rest.length + 1)) := by
  intro rest
  induction rest with
  | nil =>
    intro p _ htimely hlast haccounts
    obtain rfl : p = q := Option.some.inj hlast
    have hp := htimely p List.mem_cons_self
    refine ⟨hp.le_left, fun hkeeps => ?_⟩
    have hround := hp.keepsTime_iff.mpr (hkeeps p List.mem_cons_self haccounts)
    rw [List.length_nil]
    omega
  | cons next rest ih =>
    intro p hchain htimely hlast haccounts
    have hp := htimely p List.mem_cons_self
    obtain ⟨hrun, hchain⟩ := List.isChain_cons_cons.mp hchain
    obtain ⟨hcounts, htimer, -⟩ := hp.next hrun
    rw [List.getLast?_cons_cons] at hlast
    obtain ⟨hle, hlt⟩ := ih hchain (fun r hr => htimely r (List.mem_cons_of_mem _ hr)) hlast haccounts
    rw [htimer] at hle hlt
    have hleft := hp.le_left
    refine ⟨by dsimp only at hle; omega, fun hkeeps => ?_⟩
    have hround := hp.keepsTime_iff.mpr (hkeeps p List.mem_cons_self hcounts)
    have hrest := hlt fun r hr => hkeeps r (List.mem_cons_of_mem _ hr)
    rw [List.length_cons]
    dsimp only at hrest
    omega

/-- The passes from the first on. -/
theorem prefix_bounds {iterations : List Iteration} {timer : Timer} {t : Transfer}
    (htimely : ∀ p ∈ Transfer.passes iterations timer t, p.Timely)
    (hstretch : stretch <+: Transfer.passes iterations timer t)
    (hlast : stretch.getLast? = some q) (haccounts : q.Accounts) :
    1000000 * (timer.timeout - q.left) ≤ q.it.clock.ns - timer.timestamp.ns ∧
      ((∀ p ∈ Transfer.passes iterations timer t, p.Accounts → p.KeepsTime) →
        q.it.clock.ns - timer.timestamp.ns <
          1000000 * (timer.timeout - q.left) + 1000000 * stretch.length) := by
  cases stretch with
  | nil => cases hlast
  | cons p rest =>
    have hhead : (Transfer.passes iterations timer t).head? = some p :=
      List.singleton_prefix_iff_head?_eq_some.mp (List.IsPrefix.trans ⟨rest, rfl⟩ hstretch)
    obtain ⟨rfl, -⟩ := Transfer.passes_head hhead
    obtain ⟨hle, hlt⟩ := stretch_bounds (Transfer.isChain_stretch hstretch.isInfix)
      (fun r hr => htimely r (hstretch.subset hr)) hlast haccounts
    exact ⟨hle, fun hkeeps => hlt fun r hr => hkeeps r (hstretch.subset hr)⟩

end Stretch

/-- **The timeout is accounted for** exactly if every iteration keeps the time: the
nanoseconds of its reading are not a millisecond or more ahead of those of the reading
before, and what it takes off leaves an `int`. -/
theorem timeoutAccounted_iff {iterations : List Iteration} {timer : Timer} (t : Transfer)
    (hpositive : 0 < timer.timeout) (hint : timer.timeout < 2 ^ 31)
    (hreadings : Readings (timer.timestamp :: iterations.map (·.clock)))
    (hquiet : ∀ p ∈ Transfer.passes iterations timer t, p.Accounts → p.it.fdEvents p.timer = 0) :
    TimeoutAccounted timer (Transfer.passes iterations timer t) ↔
      ∀ p ∈ Transfer.passes iterations timer t, p.Accounts → p.KeepsTime := by
  have htimely := timely_passes iterations timer t hpositive hint hreadings hquiet
  refine ⟨fun h p hp haccounts => ?_, fun hkeeps => ⟨?_, ?_, ?_⟩⟩
  · have haccurate := h.accurate [p] p p ((List.singleton_infix_iff _ _).mpr hp) rfl rfl haccounts
    have hle := (htimely p hp).le_left
    refine (htimely p hp).keepsTime_iff.mp ?_
    rw [List.length_singleton] at haccurate
    omega
  · intro stretch p q hstretch hfirst hlast haccounts
    obtain ⟨rest, rfl⟩ := List.head?_eq_some_iff.mp hfirst
    obtain ⟨hle, hlt⟩ := stretch_bounds (Transfer.isChain_stretch hstretch)
      (fun r hr => htimely r (hstretch.subset hr)) hlast haccounts
    have hround := hlt fun r hr => hkeeps r (hstretch.subset hr)
    rw [List.length_cons]
    omega
  · intro stretch q hstretch hlast haccounts htime
    have hround := (prefix_bounds htimely hstretch hlast haccounts).2 hkeeps
    have hq := htimely q (hstretch.subset (List.mem_of_getLast? hlast))
    exact haccounts.timesOut (hq.quiet haccounts) (by omega)
  · intro q hq hout
    obtain ⟨earlier, later, happend⟩ := List.append_of_mem hq
    have hstretch : earlier ++ [q] <+: Transfer.passes iterations timer t :=
      ⟨later, by rw [happend, List.append_assoc]; rfl⟩
    have hle := (prefix_bounds htimely hstretch List.getLast?_concat hout.1).1
    have hleft := hout.left_le ((htimely q hq).quiet hout.1)
    omega

/-- The handle of a `read`, when its loop begins to wait for a response that does not
come. -/
def stalled : Transfer :=
  (Transfer.resumeReceiving ⟨[], some .ok⟩ ((downloading []).reading (readSlowly 0))).1

/-- Half a second without events, or what else the clock shows behind it. -/
def stalledIteration (clock : Timespec) : Iteration :=
  ⟨false, ⟨[], some (.ok, 1)⟩, [], false, 500, some (.ok, 0), clock⟩

/-- Two waits of half a second behind a reading at 0.999 s, both with a borrow. -/
theorem timeoutAccounted_stalled : TimeoutAccounted ⟨1000, ⟨0, 999000000⟩, 0⟩
    (Transfer.passes [stalledIteration ⟨1, 499000000⟩, stalledIteration ⟨2, 0⟩]
      ⟨1000, ⟨0, 999000000⟩, 0⟩ stalled) := by
  have hpasses : (Transfer.passes [stalledIteration ⟨1, 499000000⟩, stalledIteration ⟨2, 0⟩]
      ⟨1000, ⟨0, 999000000⟩, 0⟩ stalled).map (fun p => (p.timer, p.it)) =
        [(⟨1000, ⟨0, 999000000⟩, 0⟩, stalledIteration ⟨1, 499000000⟩),
          (⟨500, ⟨1, 499000000⟩, 0⟩, stalledIteration ⟨2, 0⟩)] := rfl
  have hmem : ∀ p ∈ Transfer.passes [stalledIteration ⟨1, 499000000⟩, stalledIteration ⟨2, 0⟩]
      ⟨1000, ⟨0, 999000000⟩, 0⟩ stalled, p.it.fdEvents p.timer = 0 ∧ p.KeepsTime := by
    intro p hp
    have hpair := List.mem_map_of_mem (f := fun p : Pass => (p.timer, p.it)) hp
    rw [hpasses] at hpair
    rcases List.mem_cons.mp hpair with hpair | hpair
    · rw [Pass.KeepsTime, (Prod.mk.inj hpair).1, (Prod.mk.inj hpair).2]
      decide
    · rw [Pass.KeepsTime, (Prod.mk.inj (List.mem_singleton.mp hpair)).1,
        (Prod.mk.inj (List.mem_singleton.mp hpair)).2]
      decide
  refine (timeoutAccounted_iff stalled (by decide) (by decide) ⟨?_, ?_⟩
    fun p hp _ => (hmem p hp).1).mpr fun p hp _ => (hmem p hp).2
  · simp [Timespec.Valid, stalledIteration]
  · simp [Timespec.ns, stalledIteration]

/-- A wait of 0.9 s that does not pass a full second is not taken off. -/
theorem not_timeoutAccounted :
    Readings [⟨0, 0⟩, ⟨0, 900000000⟩] ∧
      (Pass.mk (stalledIteration ⟨0, 900000000⟩) ⟨1000, ⟨0, 0⟩, 0⟩ stalled).Accounts ∧
      (stalledIteration ⟨0, 900000000⟩).fdEvents ⟨1000, ⟨0, 0⟩, 0⟩ = 0 ∧
      ¬ TimeoutAccounted ⟨1000, ⟨0, 0⟩, 0⟩
        (Transfer.passes [stalledIteration ⟨0, 900000000⟩] ⟨1000, ⟨0, 0⟩, 0⟩ stalled) := by
  have haccounts : (Pass.mk (stalledIteration ⟨0, 900000000⟩) ⟨1000, ⟨0, 0⟩, 0⟩ stalled).Accounts :=
    ⟨rfl, ⟨1, rfl, by decide⟩, rfl, rfl, rfl, fun _ => ⟨0, rfl⟩⟩
  refine ⟨⟨?_, ?_⟩, haccounts, rfl, fun h => ?_⟩
  · simp [Timespec.Valid]
  · simp [Timespec.ns]
  · exact absurd (h.accurate [_] _ _ (List.infix_refl _) rfl rfl haccounts) (by decide)

/-! ## Re-arming -/

/-- The timeout grows again only in an iteration that has waited itself and has been told
of events; over any others in a row it does not grow. -/
structure RearmedByActivity (passes : List Pass) : Prop where
  rearms : ∀ p ∈ passes, p.Rearms → p.Reports
  wanes : ∀ stretch p q t' timer', stretch <:+: passes → stretch.head? = some p →
    stretch.getLast? = some q → (∀ r ∈ stretch, ¬ r.Reports) →
      q.run = (t', some (.again timer')) → timer'.timeout ≤ p.timer.timeout

namespace Pass
variable (p : Pass)

/-- The iteration has waited, or nothing is left in `fdEvents` from an earlier wait. -/
def CountsOwn : Prop := 0 < p.it.waitTime p.timer ∨ p.timer.fdEvents = 0

/-- What is taken off is so much that the difference, as an `int`, is greater than the
timeout. -/
def Wraps : Prop :=
  p.timer.timeout + 2 ^ 31 < accounted p.timer.timestamp p.it.clock % 2 ^ 32 ∧
    accounted p.timer.timestamp p.it.clock % 2 ^ 32 < p.timer.timeout + 2 ^ 32

end Pass

/-- The timeouts of the handle are of their type. -/
structure CurlData.IntTimeouts (ctrl : CurlData) : Prop where
  conn : -2 ^ 31 ≤ ctrl.connTimeout ∧ ctrl.connTimeout < 2 ^ 31
  read : -2 ^ 31 ≤ ctrl.readTimeout ∧ ctrl.readTimeout < 2 ^ 31

theorem CurlData.IntTimeouts.full {ctrl : CurlData} (h : ctrl.IntTimeouts) :
    -2 ^ 31 ≤ ctrl.fullTimeout ∧ ctrl.fullTimeout < 2 ^ 31 := by
  unfold fullTimeout
  split
  · exact h.conn
  · exact h.read

theorem intTimeouts_invariant : Transfer.Invariant (·.ctrl.IntTimeouts) fun _ => True where
  io := by
    intro t ctrl hio h
    have hconn : ctrl.connTimeout = t.ctrl.connTimeout := congrArg (·.connTimeout) hio
    have hread : ctrl.readTimeout = t.ctrl.readTimeout := congrArg (·.readTimeout) hio
    exact ⟨hconn ▸ h.conn, hread ▸ h.read⟩
  receive := by
    intro t n _ _ h
    unfold Transfer.receiveChunk
    dsimp only
    rw [CurlData.writeCallback_eq]
    exact ⟨h.conn, h.read⟩
  send := by
    intro t capacity _ _ h
    unfold Transfer.sendChunk
    dsimp only
    split
    · rw [CurlData.readCallback_eq]
      exact ⟨h.conn, h.read⟩
    · exact ⟨h.conn, h.read⟩
  wait := fun _ _ h => h

/-- What holds at the head of every iteration. -/
structure Sane (timer : Timer) (t : Transfer) : Prop where
  timeout : -2 ^ 31 ≤ timer.timeout ∧ timer.timeout < 2 ^ 31
  timestamp : timer.timestamp.Valid
  handle : t.ctrl.IntTimeouts

section Rearm
variable {p : Pass} {t' : Transfer} {timer' : Timer}

theorem Sane.left_eq (h : Sane p.timer p.before) (hclock : p.it.clock.Valid) :
    p.left = toInt32 (p.timer.timeout - accounted p.timer.timestamp p.it.clock) :=
  subtractElapsed_eq _ h.timestamp hclock

theorem Sane.step (h : Sane p.timer p.before) (hclock : p.it.clock.Valid)
    (hrun : p.run = (t', some (.again timer'))) : Sane timer' t' := by
  have hiterate : Keeps (·.ctrl.IntTimeouts) (Transfer.iterate p.it p.timer) :=
    intTimeouts_invariant.iterate p.timer fun _ _ => trivial
  have hkeeps : t'.ctrl.IntTimeouts := by
    have hs := keeps_iff.mp hiterate p.before h.handle
    rw [show Transfer.iterate p.it p.timer p.before = _ from hrun] at hs
    exact hs
  obtain ⟨-, ⟨-, t'', fdEvents, hrearmed, -⟩ | ⟨-, -, rfl⟩⟩ := Pass.of_run_again hrun
  · rw [hrun] at hrearmed
    cases hrearmed
    exact ⟨hkeeps.full, h.timestamp, hkeeps⟩
  · exact ⟨h.left_eq hclock ▸ toInt32_bounds _, hclock, hkeeps⟩

/-- An iteration whose difference does not wrap around leaves no more than there was. -/
theorem Sane.left_le_iff (h : Sane p.timer p.before) (hclock : p.it.clock.Valid)
    (hleft : 0 < p.left) : p.left ≤ p.timer.timeout ↔ ¬ p.Wraps := by
  obtain ⟨hlow, hhigh⟩ := h.timeout
  unfold Pass.Wraps
  rw [h.left_eq hclock] at hleft ⊢
  generalize accounted p.timer.timestamp p.it.clock = taken at *
  unfold toInt32 at *
  rw [Int.bmod_def] at *
  omega

theorem Sane.left_pos (h : Sane p.timer p.before) (hclock : p.it.clock.Valid) (hwraps : p.Wraps) :
    0 < p.left := by
  obtain ⟨hlow, hhigh⟩ := h.timeout
  unfold Pass.Wraps at hwraps
  rw [h.left_eq hclock]
  generalize accounted p.timer.timestamp p.it.clock = taken at *
  unfold toInt32
  rw [Int.bmod_def]
  omega

theorem Pass.Rearms.reports (h : p.Rearms) (hown : p.CountsOwn) : p.Reports := by
  obtain ⟨haccounts, hevents⟩ := h.accounts
  by_cases hwait : 0 < p.it.waitTime p.timer
  · obtain ⟨n, hn⟩ := haccounts.pastWait hwait
    refine ⟨hwait, n, hn, ?_⟩
    rwa [Iteration.fdEvents, if_pos hwait, hn] at hevents
  · rw [Iteration.fdEvents, if_neg hwait] at hevents
    exact absurd (hown.resolve_left hwait) hevents

/-- Over passes in a row that do not report, the timeout does not grow if it grows in
none of them. -/
theorem timeout_le_of_stretch : ∀ {rest : List Pass} {p q : Pass} {t' : Transfer} {timer' : Timer},
    (p :: rest).IsChain (fun pass next => pass.run = (next.before, some (.again next.timer))) →
    (∀ r ∈ p :: rest, ∀ t' timer', r.run = (t', some (.again timer')) →
      timer'.timeout ≤ r.timer.timeout) →
    (p :: rest).getLast? = some q → q.run = (t', some (.again timer')) →
      timer'.timeout ≤ p.timer.timeout
  | [], p, q, t', timer', _, hle, hlast, hrun => by
      obtain rfl : p = q := Option.some.inj hlast
      exact hle p List.mem_cons_self t' timer' hrun
  | next :: rest, p, q, t', timer', hchain, hle, hlast, hrun => by
      obtain ⟨hnext, hchain⟩ := List.isChain_cons_cons.mp hchain
      rw [List.getLast?_cons_cons] at hlast
      have hrest := timeout_le_of_stretch hchain (fun r hr => hle r (List.mem_cons_of_mem _ hr))
        hlast hrun
      exact Int.le_trans hrest (hle p List.mem_cons_self _ _ hnext)

/-- **The timer is re-armed by activity only** exactly if no iteration that skips the wait
finds an event count of an earlier one, and nothing taken off wraps around. -/
theorem rearmedByActivity_iff {loop : Loop} {t : Transfer} (hints : t.ctrl.IntTimeouts)
    (hclock : ∀ ts ∈ loop.started :: loop.iterations.map (·.clock), ts.Valid) :
    RearmedByActivity (Transfer.loopPasses loop t) ↔
      ∀ p ∈ Transfer.loopPasses loop t, p.Accounts →
        p.CountsOwn ∧ (p.it.fdEvents p.timer = 0 → ¬ p.Wraps) := by
  have hsane : ∀ p ∈ Transfer.loopPasses loop t, p.it.clock.Valid ∧ Sane p.timer p.before :=
    Transfer.forall_passes (fun it timer t t' timer' hit h hrun =>
      Sane.step (p := ⟨it, timer, t⟩) h hit hrun) _ _ t
      (fun it hit => hclock _ (List.mem_cons_of_mem _ (List.mem_map_of_mem hit)))
      ⟨hints.full, hclock _ List.mem_cons_self, hints⟩
  refine ⟨fun h p hp haccounts => ⟨?_, fun hevents hwraps => ?_⟩, fun h => ⟨?_, ?_⟩⟩
  · by_contra hown
    obtain ⟨hwait, hstale⟩ := not_or.mp hown
    have hevents : p.it.fdEvents p.timer ≠ 0 := by rwa [Iteration.fdEvents, if_neg hwait]
    exact hwait (h.rearms p hp ⟨_, _, haccounts.run_rearmed hevents, hevents⟩).1
  · obtain ⟨hvalid, hhead⟩ := hsane p hp
    have hleft := hhead.left_pos hvalid hwraps
    have hle := h.wanes [p] p p _ _ ((List.singleton_infix_iff _ _).mpr hp) rfl rfl
      (fun r hr hreports => hreports.fdEvents_ne (List.mem_singleton.mp hr ▸ hevents))
      (haccounts.run_counted hevents hleft)
    exact (hhead.left_le_iff hvalid hleft).mp hle hwraps
  · exact fun p hp hrearms => hrearms.reports (h p hp hrearms.accounts.1).1
  · intro stretch p q t' timer' hstretch hfirst hlast hsilent hrun
    obtain ⟨rest, rfl⟩ := List.head?_eq_some_iff.mp hfirst
    refine timeout_le_of_stretch (Transfer.isChain_stretch hstretch)
      (fun r hr t' timer' hrun => ?_) hlast hrun
    have hpass := hstretch.subset hr
    obtain ⟨haccounts, ⟨-, hrearms⟩ | ⟨hevents, hleft, rfl⟩⟩ := Pass.of_run_again hrun
    · exact absurd (hrearms.reports (h r hpass haccounts).1) (hsilent r hr)
    · obtain ⟨hvalid, hhead⟩ := hsane r hpass
      exact (hhead.left_le_iff hvalid hleft).mpr ((h r hpass haccounts).2 hevents)

end Rearm

/-- A wait that is told of a descriptor with events, at the reading. -/
def activeIteration (clock : Timespec) : Iteration :=
  { stalledIteration clock with wait := some (.ok, 1) }

/-- An iteration that libcurl wants to be made at once. -/
def polledIteration (clock : Timespec) : Iteration :=
  { stalledIteration clock with multiTimeout := 0, wait := none }

/-- A wait with events, and one without. -/
theorem rearmedByActivity_active : RearmedByActivity (Transfer.loopPasses
    ⟨⟨0, 0⟩, [activeIteration ⟨0, 500000000⟩, stalledIteration ⟨1, 0⟩]⟩ stalled) := by
  have hpasses : (Transfer.loopPasses
      ⟨⟨0, 0⟩, [activeIteration ⟨0, 500000000⟩, stalledIteration ⟨1, 0⟩]⟩ stalled).map
        (fun p => (p.timer, p.it)) =
        [(⟨1000, ⟨0, 0⟩, 0⟩, activeIteration ⟨0, 500000000⟩),
          (⟨1000, ⟨0, 0⟩, 1⟩, stalledIteration ⟨1, 0⟩)] := rfl
  refine (rearmedByActivity_iff ⟨by decide, by decide⟩ ?_).mpr fun p hp _ => ?_
  · simp [Timespec.Valid, stalledIteration, activeIteration]
  · have hpair := List.mem_map_of_mem (f := fun p : Pass => (p.timer, p.it)) hp
    rw [hpasses] at hpair
    rcases List.mem_cons.mp hpair with hpair | hpair
    · rw [Pass.CountsOwn, Pass.Wraps, (Prod.mk.inj hpair).1, (Prod.mk.inj hpair).2]
      decide
    · rw [Pass.CountsOwn, Pass.Wraps, (Prod.mk.inj (List.mem_singleton.mp hpair)).1,
        (Prod.mk.inj (List.mem_singleton.mp hpair)).2]
      decide

/-- The events of one wait re-arm the timer again in the next iteration, which does not
wait. -/
theorem not_rearmedByActivity : ¬ RearmedByActivity (Transfer.loopPasses
    ⟨⟨0, 0⟩, [activeIteration ⟨0, 500000000⟩, polledIteration ⟨1, 0⟩]⟩ stalled) := by
  intro h
  have hsecond : Transfer.loopPasses
      ⟨⟨0, 0⟩, [activeIteration ⟨0, 500000000⟩, polledIteration ⟨1, 0⟩]⟩ stalled =
        [⟨activeIteration ⟨0, 500000000⟩, ⟨1000, ⟨0, 0⟩, 0⟩, stalled⟩,
          ⟨polledIteration ⟨1, 0⟩, ⟨1000, ⟨0, 0⟩, 1⟩, stalled.noteWait⟩] := rfl
  rw [hsecond] at h
  exact absurd (h.rearms _ (List.mem_cons_of_mem _ List.mem_cons_self) ⟨_, 1, rfl, by decide⟩).1
    (by decide)

end Chttpc
