import Chttpc.Upload

/-!
# Uploads of a declared length

`nativeConfigure` sets `uploadGoal` to the announced length, and `write` turns a
caller away once the goal has been reached.  Between these two looks at the goal
nothing bounds an upload: `read_callback` hands over as much as the buffer of libcurl
takes, so a `write` that crosses the goal goes beyond the announced length, and what
it keeps back is dropped without an error.

`declared_length_respected` says that uploads are within their length as long as no
`write` is asked to cross it.
-/

namespace Chttpc
open Program

/-- The upload is within its length, and so is what the call under way has in stock. -/
structure Declared (announced : Nat) (t : Transfer) : Prop where
  goal : t.ctrl.uploadGoal = announced
  stock : t.ctrl.Stock
  counted : t.curl.uploaded.length = t.ctrl.uploadedCount
  fits : (t.ctrl.uploadedCount : Int) + t.ctrl.countToWrite ≤ announced

/-- Nothing is uploaded but by an attached handle, and within the length. -/
structure Bounded (announced : Nat) (t : Transfer) : Prop where
  declared : t.curl.attached = true → Declared announced t
  detached : t.curl.attached = false → t.curl.uploaded = []

namespace Declared
variable {announced : Nat} {t : Transfer}

theorem of_eq (h : Declared announced t) {t' : Transfer}
    (hgoal : t'.ctrl.uploadGoal = t.ctrl.uploadGoal) (hcount : t'.ctrl.uploadedCount = t.ctrl.uploadedCount)
    (houtgoing : t'.ctrl.outgoing = t.ctrl.outgoing)
    (huploaded : t'.curl.uploaded = t.curl.uploaded) : Declared announced t' := by
  obtain ⟨-, hwrite, hbuffer, hoffset⟩ := Outgoing.mk.inj houtgoing
  refine ⟨hgoal.trans h.goal, ?_, ?_, ?_⟩
  · unfold CurlData.Stock
    rw [hwrite, hbuffer, hoffset]
    exact h.stock
  · rw [huploaded, hcount]
    exact h.counted
  · rw [hcount, hwrite]
    exact h.fits

theorem length_le (h : Declared announced t) : t.curl.uploaded.length ≤ announced := by
  have hcounted := h.counted
  have hfits := h.fits
  have hnonneg := h.stock.1
  omega

/-- What is handed over is taken from the stock, which is within the length. -/
theorem sendChunk (h : Declared announced t) (hpositive : 0 < announced) (hlong : announced < 2 ^ 63)
    (hattached : t.curl.attached = true) {capacity : Nat} (hpos : 0 < capacity)
    (hint : capacity < 2 ^ 31) : Declared announced (t.sendChunk capacity) := by
  have hgoal : (t.sendChunk capacity).ctrl.uploadGoal = t.ctrl.uploadGoal := by
    unfold Transfer.sendChunk
    dsimp only
    split
    · rw [CurlData.readCallback_eq]
    · rfl
  rcases t.sendChunk_spec hattached h.stock hpos hint with
    ⟨hctrl, huploaded, -⟩ | ⟨-, -, bytes, access, huploaded, -, -, hcounted, hsent⟩
  · refine h.of_eq hgoal ?_ ?_ huploaded
    · rw [hctrl]
      rfl
    · rw [hctrl]
      rfl
  have hgoalNe : t.ctrl.uploadGoal ≠ 0 := by
    rw [h.goal]
    omega
  have hfits := h.fits
  have hbytes := hsent.fits
  have hleft := hsent.countToWrite
  have hcount : (t.sendChunk capacity).ctrl.uploadedCount = t.ctrl.uploadedCount + bytes.length := by
    rw [hcounted hgoalNe]
    unfold toUInt64
    omega
  refine ⟨hgoal.trans h.goal, ⟨by omega, fun hne => ?_⟩, ?_, by omega⟩
  · have hstock := h.stock.2 (by omega)
    rw [hsent.buffer]
    cases hbuffer : t.ctrl.bufferForSending with
    | none =>
      rw [hbuffer] at hstock
      obtain ⟨hsingle, -⟩ := hsent.single hbuffer
      rw [hsingle] at hleft
      simp only [List.length_singleton] at hleft hstock
      omega
    | some buf =>
      rw [hbuffer] at hstock
      obtain ⟨-, hoffset, -⟩ := hsent.array buf hbuffer
      dsimp only at hstock ⊢
      omega
  · rw [huploaded, List.length_append, h.counted, hcount]

end Declared

namespace Bounded
variable {announced : Nat} {t : Transfer}

theorem length_le (h : Bounded announced t) : t.curl.uploaded.length ≤ announced := by
  cases hattached : t.curl.attached with
  | true => exact (h.declared hattached).length_le
  | false =>
    rw [h.detached hattached]
    exact Nat.zero_le _

theorem of_eq (h : Bounded announced t) {t' : Transfer}
    (hattached : t'.curl.attached = t.curl.attached)
    (hgoal : t'.ctrl.uploadGoal = t.ctrl.uploadGoal)
    (hcount : t'.ctrl.uploadedCount = t.ctrl.uploadedCount)
    (houtgoing : t'.ctrl.outgoing = t.ctrl.outgoing)
    (huploaded : t'.curl.uploaded = t.curl.uploaded) : Bounded announced t' := by
  refine ⟨fun ht => ?_, fun ht => ?_⟩
  · exact (h.declared (hattached.symm.trans ht)).of_eq hgoal hcount houtgoing huploaded
  · exact huploaded.trans (h.detached (hattached.symm.trans ht))

/-- **The length is respected** through everything libcurl does. -/
protected theorem invariant (hpositive : 0 < announced) (hlong : announced < 2 ^ 63) :
    Transfer.Invariant (Bounded announced) Callback.Sized where
  io := by
    intro t ctrl hio h
    have houtgoing : ctrl.io.outgoing = t.ctrl.io.outgoing := congrArg CurlData.outgoing hio
    exact h.of_eq rfl (congrArg (·.uploadGoal) hio) (congrArg (·.uploadedCount) hio) houtgoing rfl
  receive := by
    intro t n _ _ h
    unfold Transfer.receiveChunk
    dsimp only
    refine h.of_eq ?_ ?_ ?_ ?_ ?_
    · rw [Libcurl.afterWrite_eq]
    · rw [CurlData.writeCallback_eq]
    · rw [CurlData.writeCallback_eq]
    · rw [CurlData.writeCallback_eq]
      rfl
    · rw [Libcurl.afterWrite_eq]
  send := by
    intro t capacity hok hattached h
    have hdeclared := (h.declared hattached).sendChunk hpositive hlong hattached hok.1 hok.2
    refine ⟨fun _ => hdeclared, fun hdetached => ?_⟩
    have hsame : (t.sendChunk capacity).curl.attached = t.curl.attached := by
      unfold Transfer.sendChunk
      dsimp only
      rw [Libcurl.afterRead_eq]
    rw [hsame, hattached] at hdetached
    cases hdetached
  wait := fun _ _ h => h.of_eq rfl rfl rfl rfl rfl

/-! ## The calls -/

protected theorem carries (hpositive : 0 < announced) (hlong : announced < 2 ^ 63) :
    Transfer.Carries (Bounded announced) Callback.Sized where
  toSteady := (Bounded.invariant hpositive hlong).toSteady
  resumeReceiving := fun _ h => h.of_eq rfl rfl rfl rfl rfl
  resumeSending := fun _ h => h.of_eq rfl rfl rfl rfl rfl
  needInput := fun _ h => h.of_eq rfl rfl rfl rfl rfl
  needOutput := fun _ h => h.of_eq rfl rfl rfl rfl rfl
  release := fun _ h => h.of_eq rfl rfl rfl rfl rfl

/-- A call that starts with nothing in stock. -/
theorem empty (h : Bounded announced t) {t' : Transfer}
    (hattached : t'.curl.attached = t.curl.attached) (hgoal : t'.ctrl.uploadGoal = t.ctrl.uploadGoal)
    (hcount : t'.ctrl.uploadedCount = t.ctrl.uploadedCount) (hempty : t'.ctrl.countToWrite = 0)
    (huploaded : t'.curl.uploaded = t.curl.uploaded) : Bounded announced t' := by
  refine ⟨fun ht => ?_, fun ht => huploaded.trans (h.detached (hattached.symm.trans ht))⟩
  have hdeclared := h.declared (hattached.symm.trans ht)
  have hfits := hdeclared.fits
  have hnonneg := hdeclared.stock.1
  refine ⟨hgoal.trans hdeclared.goal, ⟨Int.le_of_eq hempty.symm, fun hne => absurd hempty hne⟩, ?_, ?_⟩
  · rw [huploaded, hcount]
    exact hdeclared.counted
  · rw [hcount, hempty]
    omega

/-- A `write` that is below the goal and does not cross it. -/
theorem writeOpen (hpositive : 0 < announced) (hlong : announced < 2 ^ 63) {w : BodyCall}
    (hw : w.InRange) (hok : (Call.write w).All Callback.Sized) (h : Bounded announced t)
    (hfits : (t.ctrl.uploadedCount : Int) + w.count ≤ announced) :
    Bounded announced (Transfer.writeOpen w t.entered).1 := by
  have hstock : (t.entered.modify (·.beginWrite w)).ctrl.Stock := by
    have hfed : w.Fed [] (t.entered.modify (·.beginWrite w)).ctrl := by
      refine ⟨List.nil_prefix, (Int.sub_zero w.count).symm, rfl, ?_⟩
      cases w.buf with
      | none => exact rfl
      | some buf => exact (Int.add_zero w.off).symm
    exact hfed.stock hw
  have hbegin : Bounded announced (t.entered.modify (·.beginWrite w)) :=
    ⟨fun ht => ⟨(h.declared ht).goal, hstock, (h.declared ht).counted, hfits⟩, h.detached⟩
  exact (Bounded.carries hpositive hlong).writeOpen hok hbegin

end Bounded

/-- The call is not a `write` that is below the goal and crosses it. -/
def Call.StaysWithin (announced : Nat) (t : Transfer) (call : Call) : Prop :=
  ∀ w, call = .write w → t.ctrl.busy = false → t.ctrl.goalReached = false →
    (t.ctrl.uploadedCount : Int) + w.count ≤ announced

theorem Bounded.run {announced : Nat} {t : Transfer} {call : Call} (hpositive : 0 < announced)
    (hlong : announced < 2 ^ 63) (hcall : call.Uploads) (hok : call.All Callback.Sized)
    (h : Bounded announced t) (hwithin : call.StaysWithin announced t) :
    Bounded announced (call.run t).1 := by
  have hcarries := Bounded.carries hpositive hlong
  cases hbusy : t.ctrl.busy with
  | true =>
    obtain ⟨returned, hrun⟩ := call.run_taken hbusy
    rw [hrun]
    exact h.of_eq rfl rfl rfl rfl rfl
  | false =>
    cases call with
    | read r => exact hcarries.read hok hbusy (h.empty rfl rfl rfl rfl rfl)
    | closeOutput c => exact hcarries.closeOutput hok hbusy (h.empty rfl rfl rfl rfl rfl)
    | write w =>
      show Bounded announced (Transfer.write w t).1
      cases hgoal : t.ctrl.goalReached with
      | true =>
        rw [Transfer.write_closed hbusy hgoal]
        exact h.of_eq rfl rfl rfl rfl rfl
      | false =>
        rw [Transfer.write_open hbusy hgoal]
        exact h.writeOpen hpositive hlong hcall hok (hwithin w rfl hbusy hgoal)
    | _ => exact hcall.elim

/-- The configuration announces the length. -/
theorem Bounded.nativeConfigure {t : Transfer} (ht : t.Detached) (hcount : t.ctrl.uploadedCount = 0)
    {c : Configure} (hout : c.doOutput = true) (hpositive : 0 < c.fixedLength)
    (hlong : c.fixedLength < 2 ^ 63) (hok : (Call.nativeConfigure c).All Callback.Sized) :
    Bounded c.fixedLength.toNat (Transfer.nativeConfigure c t).1 := by
  refine (Bounded.carries (by omega) (by omega)).nativeConfigure hok ht.busy (fun _ => ?_) fun _ => ?_
  · refine ⟨fun hattached => ?_, fun _ => ht.uploaded⟩
    cases ht.attached.symm.trans hattached
  have hattach : ¬ (c.setCtrl (t.entered.modify (·.beginConfigure)).ctrl).state.attached = true := by
    show ¬ t.ctrl.state.attached = true
    rw [ht.state]
    decide
  have hfixed : c.fixed = true := by
    rw [Configure.fixed, hout, Bool.true_and, bne_iff_ne]
    omega
  have hgoal : (c.setCtrl (t.entered.modify (·.beginConfigure)).ctrl).uploadGoal =
      c.fixedLength.toNat := by
    show (if c.fixed then toUInt64 c.fixedLength else 0) = _
    rw [if_pos hfixed]
    unfold toUInt64
    omega
  unfold Configure.attach
  rw [if_neg hattach]
  refine ⟨fun _ => ⟨hgoal, ⟨(show (0 : Int) ≤ 0 by decide), fun hne => absurd rfl hne⟩,
    hcount.symm, ?_⟩, fun hdetached => ?_⟩
  · show (t.ctrl.uploadedCount : Int) + 0 ≤ _
    omega
  · cases hdetached

/-! ## Runs -/

/-- **The declared length is respected**: no more bytes than announced have been handed
over, and a `write` with bytes beyond that has thrown an exception. -/
structure RespectsLength (announced : Nat) (calls : List Call) (t₀ : Transfer) : Prop where
  total : (runCalls calls t₀).1.curl.uploaded.length ≤ announced
  rejected : ∀ before w, before ++ [.write w] <+: calls →
    ∀ s, runCalls before t₀ = (s, some ()) →
      ∀ t returned, Transfer.write w s = (t, some returned) →
        announced < s.curl.uploaded.length + w.count → t.ctrl.env.pending ≠ none

/-- **A declared length is respected if no `write` crosses it**: each one that is below
the goal asks for no more than is left.  Those at the goal are turned away. -/
theorem declared_length_respected {t₀ : Transfer} (h₀ : t₀.Detached)
    (hcount : t₀.ctrl.uploadedCount = 0) {c : Configure} (hout : c.doOutput = true)
    (hpositive : 0 < c.fixedLength) (hlong : c.fixedLength < 2 ^ 63) {calls : List Call}
    (hcalls : ∀ call ∈ calls, call.Uploads)
    (hcapacity : ∀ call ∈ .nativeConfigure c :: calls, call.All Callback.Sized)
    (hwithin : ∀ before w, before ++ [.write w] <+: calls →
      ∀ s, runCalls (.nativeConfigure c :: before) t₀ = (s, some ()) →
        s.ctrl.busy = false → s.ctrl.goalReached = false →
          (s.ctrl.uploadedCount : Int) + w.count ≤ c.fixedLength) :
    RespectsLength c.fixedLength.toNat (.nativeConfigure c :: calls) t₀ := by
  have hconfigure := Bounded.nativeConfigure h₀ hcount hout hpositive hlong
    (hcapacity _ List.mem_cons_self)
  have hbounded : ∀ cs, cs <+: calls →
      Bounded c.fixedLength.toNat (runCalls (.nativeConfigure c :: cs) t₀).1 := by
    intro cs hpre
    unfold runCalls
    rcases hrun : (Call.nativeConfigure c).run t₀ with ⟨t, _ | returned⟩
    · have hrun' : Transfer.nativeConfigure c t₀ = (t, none) := hrun
      rw [hrun'] at hconfigure
      rw [forEach, bind_none hrun]
      exact hconfigure
    · have hrun' : Transfer.nativeConfigure c t₀ = (t, some returned) := hrun
      rw [hrun'] at hconfigure
      rw [forEach, bind_some hrun]
      refine forEach_keeps (I := Bounded c.fixedLength.toNat) (C := fun s call => call ∈ calls ∧
        call.StaysWithin c.fixedLength.toNat s) (fun s call hs hC => ?_) cs t hconfigure ?_
      · exact hs.run (by omega) (by omega) (hcalls call hC.1)
          (hcapacity call (List.mem_cons_of_mem _ hC.1)) hC.2
      · intro before call hcall s hs
        refine ⟨hpre.subset (hcall.subset (List.mem_append_right _ List.mem_cons_self)), ?_⟩
        rintro w rfl hbusy hgoal
        have hfits := hwithin before w (hcall.trans hpre) s ?_ hbusy hgoal
        · omega
        · rw [runCalls, forEach, bind_some hrun]
          exact hs
  refine ⟨(hbounded calls (List.prefix_refl _)).length_le, ?_⟩
  intro before w hpre s hs t returned hw hbeyond
  cases before with
  | nil => cases (List.cons_prefix_cons.mp hpre).1
  | cons first before =>
    obtain ⟨rfl, hrest⟩ := List.cons_prefix_cons.mp hpre
    cases hbusy : s.ctrl.busy with
    | true =>
      rw [Transfer.write, Transfer.acquire_taken hbusy] at hw
      cases hw
      intro hpending
      cases hpending
    | false =>
      cases hgoal : s.ctrl.goalReached with
      | true =>
        rw [Transfer.write_closed hbusy hgoal] at hw
        cases hw
        intro hpending
        cases hpending
      | false =>
        have hfits := hwithin before w hrest s hs hbusy hgoal
        have hbefore := hbounded before ((List.prefix_append _ _).trans hrest)
        rw [hs] at hbefore
        have hlength : s.curl.uploaded.length ≤ s.ctrl.uploadedCount := by
          cases hattached : s.curl.attached with
          | true => exact (hbefore.declared hattached).counted.le
          | false =>
            have hnil : s.curl.uploaded = [] := hbefore.detached hattached
            rw [hnil]
            exact Nat.zero_le _
        omega

theorem declared_length_respected_exactly :
    RespectsLength 3 [.nativeConfigure (configureUpload 3), .write writeThree]
      (.fresh latinPlatform fun _ => 0) := by
  refine declared_length_respected (detached_fresh latinPlatform fun _ => 0) rfl
    (c := configureUpload 3) rfl (by decide) (by decide) ?_ ?_ ?_
  · simp [Call.Uploads, BodyCall.InRange, writeThree]
  · simp [Call.All, Loop.All, Pause.All, writeThree, configureUpload, quietIteration, Callback.Sized]
  · intro before w hpre s hs _ _
    cases before with
    | nil =>
      obtain ⟨hw, -⟩ := List.cons_prefix_cons.mp hpre
      cases hw
      cases hs
      decide
    | cons first before =>
      have hlen := hpre.length_le
      simp only [List.length_append, List.length_cons, List.length_nil] at hlen
      omega

/-- A `write` of three bytes to an upload of two: all three are handed over. -/
theorem not_respectsLength_crossing :
    ¬ RespectsLength 2 [.nativeConfigure (configureUpload 2), .write writeThree]
      (.fresh latinPlatform fun _ => 0) :=
  fun h => absurd h.total (by decide)

end Chttpc
