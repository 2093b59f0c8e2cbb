import Chttpc.HandleOptions

/-!
# What the handle goes by

Some options have a counterpart in the handle, or in what calls back into it: the functions for
the body, the length of an upload, the treatment of redirects.  `nativeConfigure` sets both
sides, `closeOutput` and `reset` one of them; they agree at any time (`options_agree`).
-/

namespace Chttpc
open Program

/-- What the callbacks and the handle go by, of what libcurl has been told. -/
structure Told where
  writeFunction : WriteFunction
  readFunction : ReadFunction
  uploadGoal : Nat
  attached : Bool
  handleRedirect : Bool

def Transfer.told (t : Transfer) : Told :=
  ⟨t.curl.writeFunction, t.curl.readFunction, t.ctrl.uploadGoal, t.ctrl.state.attached,
    t.ctrl.state.handleRedirect⟩

section Told
variable {told : Told} {t : Transfer}

theorem Transfer.told_of_wire {ctrl : CurlData} (h : ctrl.wire = t.ctrl.wire) :
    ({ t with ctrl } : Transfer).told = t.told := by
  have hgoal : ctrl.uploadGoal = t.ctrl.uploadGoal := congrArg (·.uploadGoal) h
  have hattached : ctrl.state.attached = t.ctrl.state.attached := congrArg (·.state.attached) h
  have hredirect : ctrl.state.handleRedirect = t.ctrl.state.handleRedirect :=
    congrArg (·.state.handleRedirect) h
  rw [told, told, hgoal, hattached, hredirect]

/-- While the loop performs, nothing is told anew. -/
theorem told_invariant (told : Told) :
    Transfer.Invariant (fun t => t.told = told) fun _ => True where
  io := fun _ _ hio h => (Transfer.told_of_wire (CurlData.wire_eq_of_io_eq hio)).trans h
  receive := by
    intro t n _ _ h
    unfold Transfer.receiveChunk
    dsimp only
    rw [CurlData.writeCallback_eq, Libcurl.afterWrite_eq]
    exact h
  send := by
    intro t capacity _ _ h
    unfold Transfer.sendChunk
    dsimp only
    rw [Libcurl.afterRead_eq]
    split
    · rw [CurlData.readCallback_eq]
      exact h
    · exact h
  wait := fun _ _ h => h

theorem told_carries (told : Told) :
    Transfer.Carries (fun t => t.told = told) fun _ => True where
  toSteady := (told_invariant told).toSteady
  resumeReceiving := fun _ h => h
  resumeSending := fun _ h => h
  needInput := fun _ h => h
  needOutput := fun _ h => h
  release := fun _ h => h

/-- A call that tells libcurl nothing of this. -/
def Call.isQuiet : Call → Bool
  | .nativeConfigure _ | .closeOutput _ | .reset => false
  | _ => true

theorem told_quiet {call : Call} (hcall : call.isQuiet = true) (hfree : t.ctrl.busy = false) :
    (call.run t).1.told = t.told := by
  have hok := call.all_true
  cases call using Call.cases_run with
  | nativeConfigure c => cases hcall
  | read r => exact (told_carries t.told).read hok hfree rfl
  | write w =>
    show (Transfer.write w t).1.told = t.told
    cases hgoal : t.ctrl.goalReached with
    | true =>
      rw [Transfer.write_closed hfree hgoal]
      exact Transfer.told_of_wire (CurlData.wire_eq_of_io_eq
        (CurlData.io_throwException _ (by decide) _ _))
    | false =>
      rw [Transfer.write_open hfree hgoal]
      exact (told_carries t.told).writeOpen hok rfl
  | closeOutput c => cases hcall
  | reset => cases hcall
  | headers call failure method hrun hframed =>
    rw [hrun, Transfer.locked, Transfer.acquire_free hfree]
    show (Program.andThen _ _ t.entered).1.told = t.told
    unfold Program.andThen
    dsimp only
    cases hmethod : method t.entered with
    | none => rfl
    | some answer =>
      have hwire := hframed t.entered answer.1 answer.2 hmethod
      have htold := Transfer.told_of_wire (t := t.entered) hwire
      exact htold

theorem told_closeOutput (c : Close) (hfree : t.ctrl.busy = false) :
    (Transfer.closeOutput c t).1.told = { t.told with readFunction := .eofCallback } :=
  (told_carries { t.told with readFunction := .eofCallback }).closeOutput
    (Call.all_true (.closeOutput c)) hfree rfl

theorem told_reset (hfree : t.ctrl.busy = false) :
    (Transfer.reset t).1.told = { t.told with attached := false, handleRedirect := false } := by
  rw [Transfer.reset, Transfer.acquire_free hfree]
  show (t.entered.detach.modify CurlData.reset).told = _
  unfold Transfer.detach
  split <;> rfl

theorem told_nativeConfigure (c : Configure) (hfree : t.ctrl.busy = false) :
    (Transfer.nativeConfigure c t).1.told =
      if c.urlBufferOk then
        ⟨(c.setCurl t.ctrl.outHeaders t.curl).writeFunction,
          (c.setCurl t.ctrl.outHeaders t.curl).readFunction, (c.setCtrl t.ctrl).uploadGoal, true,
          c.followRedirects⟩
      else t.told := by
  refine (told_carries _).nativeConfigure (Call.all_true (.nativeConfigure c)) hfree
    (fun hurl => ?_) fun hurl => ?_
  · rw [if_neg (by rw [hurl]; decide)]
    exact Transfer.told_of_wire (CurlData.wire_eq_of_io_eq (CurlData.io_oomThrow _))
  · rw [if_pos hurl]
    unfold Configure.attach
    dsimp only
    split
    · rename_i hattached
      rw [Transfer.told, hattached]
      rfl
    · rfl

/-- **The options and the handle agree.** -/
structure Agrees (h : Handle) : Prop where
  write : h.option .writeFunction = some (.write h.transfer.curl.writeFunction)
  read : h.option .readFunction = some (.read h.transfer.curl.readFunction)
  /-- The announced length, and no length. -/
  goal : (∃ n, h.option .inFileSizeLarge = some (.long n) ∧
      h.transfer.ctrl.uploadGoal = toUInt64 n) ∨
    h.transfer.ctrl.uploadGoal = 0 ∧
      (h.option .inFileSizeLarge = none ∨ h.option .inFileSizeLarge = some (.long (-1)))
  redirect : h.transfer.ctrl.state.attached = true →
    h.option .followLocation = some (.ofBool h.transfer.ctrl.state.handleRedirect)

theorem agrees_fresh (longMax : Int) (flags : BitVec 32) (platform : Platform)
    (rodata : Nat → UInt8) : Agrees (.fresh longMax flags platform rodata) where
  write := by
    unfold Handle.option Handle.fresh nativeCreateOptions
    cases hasFlag flags .debug <;> cases hasFlag flags .rawResponse <;> rfl
  read := (readSet_fresh longMax flags platform rodata).opened (Runs.not_since_nil _ _)
  goal := by
    refine Or.inr ⟨rfl, Or.inl ?_⟩
    unfold Handle.option Handle.fresh nativeCreateOptions
    cases hasFlag flags .debug <;> cases hasFlag flags .rawResponse <;> rfl
  redirect := nofun

/-- The agreement depends on these options and on what libcurl has been told. -/
theorem Agrees.of_told {h h' : Handle} (hagrees : Agrees h)
    (htold : h'.transfer.told = h.transfer.told)
    (hoptions : ∀ option ∈ [.writeFunction, .readFunction, .inFileSizeLarge, .followLocation],
      h'.option option = h.option option) : Agrees h' := by
  obtain ⟨hwrite, hread, hgoal, hattached, hredirect⟩ := Told.mk.inj htold
  refine ⟨?_, ?_, ?_, fun h => ?_⟩
  · rw [hoptions _ (by decide), hwrite]
    exact hagrees.write
  · rw [hoptions _ (by decide), hread]
    exact hagrees.read
  · rw [hoptions _ (by decide), hgoal]
    exact hagrees.goal
  · rw [hoptions _ (by decide), hredirect]
    exact hagrees.redirect (hattached.symm.trans h)

/-- What a request sets, of the options that agree. -/
theorem PassedOn.lookup_options (o : PassedOn) (c : Configure) (outHeaders : List (List UInt8))
    (old : List Setopt) :
    ((o.options c outHeaders).reverse ++ old).lookup .writeFunction =
        some (.write (if c.doInput then .writeCallback
          else if c.doOutput then .skipReceiveCallback else .abortReceiveCallback)) ∧
      ((o.options c outHeaders).reverse ++ old).lookup .inFileSizeLarge =
        some (.long (if c.fixed then c.fixedLength else -1)) ∧
      ((o.options c outHeaders).reverse ++ old).lookup .followLocation =
        some (.ofBool c.followRedirects) := by
  have hproxy : CURLoption.followLocation ∉ o.proxyOptions.map Prod.fst := fun h =>
    absurd (o.mem_proxyOptions _ h) (by decide)
  have hkind : CURLoption.followLocation ≠ (o.kindOption c).1 := fun h =>
    absurd (h ▸ o.kindOption_mem c) (by decide)
  refine ⟨?_, ?_, ?_⟩
  · rw [options, List.reverse_append, List.reverse_append]
    cases c.doOutput <;> rfl
  · rw [options, List.reverse_append, List.reverse_append]
    cases c.doOutput <;> rfl
  · rw [options, List.append_assoc, List.append_assoc, List.reverse_append, List.append_assoc,
      List.lookup_append, lookup_eq_none_iff.mpr, Option.none_or]
    · rfl
    · rw [List.map_reverse, List.mem_reverse, List.map_append, List.mem_append, not_or]
      refine ⟨hproxy, ?_⟩
      cases c.doOutput <;> simp [hkind]

/-- A request that has got its buffer for the URL. -/
theorem Agrees.configured {width : Nat} {h : Handle} (hagrees : Agrees h)
    (hfree : h.transfer.ctrl.busy = false) {c : Configure} (hurl : c.urlBufferOk = true)
    (o : PassedOn) : Agrees ((HandleCall.configure c o).run width h).1 := by
  obtain ⟨hwrite, hsize, hfollow⟩ := o.lookup_options c h.transfer.ctrl.outHeaders h.setopts
  have htold : ((HandleCall.configure c o).run width h).1.transfer.told = _ :=
    told_nativeConfigure c hfree
  rw [if_pos hurl] at htold
  obtain ⟨hwriteTold, hreadTold, hgoalTold, -, hredirectTold⟩ := Told.mk.inj htold
  have hoption (option : CURLoption) : ((HandleCall.configure c o).run width h).1.option option =
      ((o.options c h.transfer.ctrl.outHeaders).reverse ++ h.setopts).lookup option := by
    rw [Handle.option, HandleCall.setopts_run _ hfree, HandleCall.options, if_pos hurl]
  refine ⟨?_, ?_, ?_, fun _ => ?_⟩
  · rw [hoption, hwrite, hwriteTold]
    rfl
  · rw [hreadTold]
    unfold Configure.setCurl
    cases houtput : c.doOutput with
    | true =>
      rw [hoption]
      exact o.lookup_readFunction houtput _ _
    | false =>
      have hnot : CURLoption.readFunction ∉ (HandleCall.configure c o).named := by
        rw [HandleCall.readFunction_mem_named hurl, houtput]
        decide
      exact (HandleCall.option_run_of_notMem _ width hfree hnot).trans hagrees.read
  · rw [hoption, hsize, hgoalTold]
    unfold Configure.setCtrl
    cases c.fixed with
    | true => exact Or.inl ⟨c.fixedLength, rfl, rfl⟩
    | false => exact Or.inr ⟨rfl, Or.inr rfl⟩
  · rw [hoption, hfollow, hredirectTold]

/-- `closeOutput` tells libcurl to read with `eof_callback`. -/
theorem Agrees.closed {width : Nat} {h : Handle} (hagrees : Agrees h)
    (hfree : h.transfer.ctrl.busy = false) (c : Close) :
    Agrees ((HandleCall.other (.closeOutput c) rfl).run width h).1 := by
  have htold : ((HandleCall.other (.closeOutput c) rfl).run width h).1.transfer.told = _ :=
    told_closeOutput c hfree
  obtain ⟨hwrite, hread, hgoal, hattached, hredirect⟩ := Told.mk.inj htold
  have hsame {option : CURLoption} (hne : option ≠ .readFunction) :=
    (HandleCall.other (.closeOutput c) rfl).option_run_of_notMem width hfree
      (fun h : option ∈ [CURLoption.readFunction] => hne (List.mem_singleton.mp h))
  refine ⟨?_, ?_, ?_, fun h => ?_⟩
  · rw [hsame (by decide), hwrite]
    exact hagrees.write
  · rw [Handle.option, HandleCall.setopts_run _ hfree, hread]
    rfl
  · rw [hsame (by decide), hgoal]
    exact hagrees.goal
  · rw [hsame (by decide), hredirect]
    exact hagrees.redirect (hattached.symm.trans h)

/-- **Every call keeps the agreement**, at every instant. -/
theorem Agrees.run {width : Nat} {h : Handle} (hagrees : Agrees h) (call : HandleCall) :
    Agrees (call.run width h).1 := by
  cases hbusy : h.transfer.ctrl.busy with
  | true =>
    obtain ⟨returned, htaken⟩ := call.call.run_taken hbusy
    have hsetopts : call.setopts width h.transfer = [] := if_pos hbusy
    refine hagrees.of_told ?_ fun option _ => ?_
    · show (call.call.run h.transfer).1.told = _
      rw [htaken]
      rfl
    · show ((call.setopts width h.transfer).reverse ++ h.setopts).lookup option = _
      rw [hsetopts]
      rfl
  | false =>
    have hquiet : (∀ option ∈ [.writeFunction, .readFunction, .inFileSizeLarge, .followLocation],
        option ∉ call.named) → (call.call.run h.transfer).1.told = h.transfer.told →
          Agrees (call.run width h).1 := fun hnamed htold =>
      hagrees.of_told htold fun option hoption =>
        call.option_run_of_notMem width hbusy (hnamed option hoption)
    cases call with
    | configure c o =>
      cases hurl : c.urlBufferOk with
      | true => exact hagrees.configured hbusy hurl o
      | false =>
        refine hquiet (fun option _ => ?_) ?_
        · rw [HandleCall.named, HandleCall.options, if_neg (by rw [hurl]; decide)]
          exact List.not_mem_nil
        · have htold : (Transfer.nativeConfigure c h.transfer).1.told = _ :=
            told_nativeConfigure c hbusy
          rw [if_neg (by rw [hurl]; decide)] at htold
          exact htold
    | other call hcall =>
      cases call with
      | nativeConfigure c => cases hcall
      | closeOutput c => exact hagrees.closed hbusy c
      | reset =>
        have htold : ((HandleCall.other .reset hcall).run width h).1.transfer.told = _ :=
          told_reset hbusy
        obtain ⟨hwrite, hread, hgoal, hattached, -⟩ := Told.mk.inj htold
        have hsame (option : CURLoption) :
            ((HandleCall.other .reset hcall).run width h).1.option option = h.option option :=
          HandleCall.option_run_of_notMem _ width hbusy List.not_mem_nil
        refine ⟨?_, ?_, ?_, fun h => ?_⟩
        · rw [hsame, hwrite]
          exact hagrees.write
        · rw [hsame, hread]
          exact hagrees.read
        · rw [hsame, hgoal]
          exact hagrees.goal
        · exact absurd (hattached.symm.trans h) (by decide)
      | setOptionInt value n =>
        refine hquiet (fun option hoption hnamed => ?_) (told_quiet rfl hbusy)
        have hapart : ∀ option ∈ intNames,
            option ∉ [.writeFunction, .readFunction, .inFileSizeLarge, .followLocation] := by decide
        exact hapart option (mem_intNames _ _ _ _ hnamed) hoption
      | _ => exact hquiet (fun _ _ => List.not_mem_nil) (told_quiet rfl hbusy)

/-- **The options and the handle agree at any time**: libcurl calls back the functions that the
options name, `write` counts against the length that libcurl has been told to expect, and
`curlPerform` goes by the way libcurl treats redirects. -/
theorem options_agree (width : Nat) (longMax : Int) (flags : BitVec 32) (platform : Platform)
    (rodata : Nat → UInt8) (calls : List HandleCall) :
    Agrees (runHandle width calls (.fresh longMax flags platform rodata)).1 :=
  keeps_iff.mp (Keeps.forEach fun call _ => keeps_iff.mpr fun _ h => h.run call) _
    (agrees_fresh longMax flags platform rodata)

end Told

end Chttpc
