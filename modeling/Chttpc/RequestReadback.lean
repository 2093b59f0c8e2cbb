import Chttpc.RequestEdits

/-!
# What `getRequestHeaders` returns

The list of request headers is read back as one array of names and values.  A header
stands in the list as `Name:` (a stub, which is left out), as `Name;` (an empty value) or
as `Name:value`.  `RequestEntry` is a header in these terms, with its name and its value
free of what would make the three forms run into each other.

The array has room for `outHeaderCount` headers, and the loop that fills it stops with
the room: it goes through that many nodes of the list, whether it takes a header from
them or not.  What is lost are the headers behind them.
-/

namespace Chttpc

/-- A header of the list; a stub has no value. -/
structure RequestEntry where
  name : List UInt8
  value : Option (List UInt8)
  name_plain : ∀ c ∈ name, c ≠ 0 ∧ c ≠ 58 ∧ c ≠ 59 ∧ c < 128
  value_plain : ∀ text, value = some text → ∀ c ∈ text, c ≠ 0 ∧ c < 128

namespace RequestEntry

/-- The text of the header in the list. -/
def text (e : RequestEntry) : List UInt8 :=
  match e.value with
  | none => e.name ++ [58]
  | some [] => e.name ++ [59]
  | some (c :: value) => e.name ++ 58 :: c :: value

/-- The name and the value as Java strings; a stub gives none. -/
def pair (e : RequestEntry) : List (Option JString) :=
  match e.value with
  | none => []
  | some value => [some (e.name.map (·.toUInt16)), some (value.map (·.toUInt16))]

theorem pair_eq_nil_iff {e : RequestEntry} : e.pair = [] ↔ e.value = none := by
  unfold pair
  cases e.value <;> simp

theorem findIdx_name (e : RequestEntry) (rest : List UInt8) :
    (e.name ++ rest).findIdx (· == 58) = e.name.length + rest.findIdx (· == 58) := by
  have hname : e.name.findIdx (· == 58) = e.name.length := by
    rw [List.findIdx_eq_length]
    intro c hc
    simpa using (e.name_plain c hc).2.1
  rw [List.findIdx_append, hname, if_neg (Nat.lt_irrefl _), Nat.add_comm]

theorem findIdx_colon (rest : List UInt8) : (58 :: rest).findIdx (· == 58) = 0 := by
  rw [List.findIdx_cons]
  rfl

/-- `getRequestHeaders` takes the name and the value out of the text again. -/
theorem requestHeader_text {e : RequestEntry} {data : List UInt8} (h : cString data = e.text) :
    CurlData.requestHeader data = e.value.map fun value => (e.name, value) := by
  unfold CurlData.requestHeader
  rw [h, text]
  cases e.value with
  | none =>
    dsimp only
    rw [findIdx_name, findIdx_colon, List.length_append, if_pos (by simp), if_pos (by simp)]
    rfl
  | some value =>
    cases value with
    | nil =>
      have hcolon : [(59 : UInt8)].findIdx (· == 58) = 1 := rfl
      dsimp only
      rw [findIdx_name, hcolon, List.length_append, List.length_singleton,
        if_neg (Nat.lt_irrefl _), Nat.add_sub_cancel, List.take_left]
      rfl
    | cons c value =>
      have hdrop : (e.name ++ 58 :: c :: value).drop (e.name.length + 1) = c :: value := by
        rw [← List.drop_drop, List.drop_left]
        rfl
      dsimp only
      rw [findIdx_name, findIdx_colon, Nat.add_zero, List.length_append, if_pos (by simp),
        if_neg (by simp), List.take_left, hdrop, List.take_of_length_le (by simp)]
      rfl

theorem valued_eq {e : RequestEntry} {data : List UInt8} (h : cString data = e.text) :
    CurlData.valued data = e.value.isSome := by
  rw [CurlData.valued, requestHeader_text h, Option.isSome_map]

end RequestEntry

/-! ## The array -/

/-- What a header of the list leaves in the array. -/
def headerStrings (platform : Platform) (data : List UInt8) : List (Option JString) :=
  match CurlData.requestHeader data with
  | none => []
  | some (key, value) => [some (key.map platform.jchar), some (value.map platform.jchar)]

theorem headerStrings_eq (platform : Platform) {e : RequestEntry} {data : List UInt8}
    (h : cString data = e.text) : headerStrings platform data = e.pair := by
  rw [headerStrings, e.requestHeader_text h, RequestEntry.pair]
  cases hvalue : e.value with
  | none => rfl
  | some value =>
    have hname : ∀ c ∈ e.name, c < 128 := fun c hc => (e.name_plain c hc).2.2.2
    have htext : ∀ c ∈ value, c < 128 := fun c hc => (e.value_plain value hvalue c hc).2
    rw [Option.map_some]
    dsimp only
    rw [jchar_ascii platform hname, jchar_ascii platform htext]

section Write
variable {env : JNIEnv} {w : HeaderWriter} {xs : List (Option JString)} {n : Nat}
  {platform : Platform} {alloc : ArrayAlloc}

/-- Either the string is stored, or an exception is pending. -/
theorem WrittenOut.put_or (platform : Platform) (alloc : ArrayAlloc)
    (h : WrittenOut env w xs (n + 1)) (text : List UInt8) :
    (∃ w', w.put platform alloc text = .ok w' ∧
      WrittenOut env w' (xs ++ [some (text.map platform.jchar)]) n) ∨
    ∃ w', w.put platform alloc text = .error (.outOfMemory w') ∧ w'.env.pending ≠ none := by
  by_cases hok : alloc.string w.hdrPos = true
  · exact .inl (h.put platform hok text)
  · refine .inr ⟨{ w with env := w.env.throw .outOfMemoryError }, ?_, JNIEnv.pending_throw _ _⟩
    rw [HeaderWriter.put, Platform.headerToString, if_neg hok]

/-- **The loop writes a pair for each header with a value**, one behind the other, or an
exception is pending. -/
theorem WrittenOut.writeRequestHeaders (platform : Platform) (alloc : ArrayAlloc)
    (outHeaders : List (List UInt8)) (w : HeaderWriter) (xs : List (Option JString))
    (h : WrittenOut env w xs (n + 2 * CurlData.numValued outHeaders)) :
    (∃ w', CurlData.writeRequestHeaders platform alloc outHeaders w = .ok w' ∧
      WrittenOut env w' (xs ++ outHeaders.flatMap (headerStrings platform)) n) ∨
    ∃ w', CurlData.writeRequestHeaders platform alloc outHeaders w = .error (.outOfMemory w') ∧
      w'.env.pending ≠ none := by
  induction outHeaders generalizing w xs with
  | nil => exact .inl ⟨w, rfl, by simpa [CurlData.numValued] using h⟩
  | cons data rest ih =>
    rw [CurlData.writeRequestHeaders, List.flatMap_cons, headerStrings]
    cases hheader : CurlData.requestHeader data with
    | none =>
      have hvalued : CurlData.valued data = false := by rw [CurlData.valued, hheader]; rfl
      rw [CurlData.numValued, List.countP_cons_of_neg (by simp [hvalued])] at h
      exact ih w xs h
    | some header =>
      obtain ⟨key, value⟩ := header
      have hvalued : CurlData.valued data = true := by rw [CurlData.valued, hheader]; rfl
      rw [CurlData.numValued, List.countP_cons_of_pos hvalued, Nat.mul_add] at h
      rcases WrittenOut.put_or platform alloc (n := _ + 1) h key with
        ⟨w', hput, h'⟩ | ⟨w', hput, hpending⟩
      · rcases h'.put_or platform alloc value with ⟨w'', hput', h''⟩ | ⟨w'', hput', hpending⟩
        · dsimp only
          rw [hput]
          dsimp only
          rw [hput']
          rcases ih w'' _ h'' with ⟨w₁, hrest, h₁⟩ | hrest
          · refine .inl ⟨w₁, hrest, ?_⟩
            rw [List.append_assoc, List.append_assoc] at h₁
            exact h₁
          · exact .inr hrest
        · refine .inr ⟨w'', ?_, hpending⟩
          dsimp only
          rw [hput]
          dsimp only
          rw [hput']
      · refine .inr ⟨w', ?_, hpending⟩
        dsimp only
        rw [hput]

end Write

namespace CurlData
variable {ctrl : CurlData} {platform : Platform} {alloc : ArrayAlloc}

/-- Nothing is returned if nothing is counted. -/
theorem getRequestHeaders_null (h : ctrl.outHeaders = [] ∨ ctrl.outHeaderCount = 0) :
    (ctrl.getRequestHeaders platform alloc).strArray = none := by
  unfold getRequestHeaders
  rw [if_pos (h.imp_right fun hzero => by rw [hzero])]

/-- **The array of the request headers**, when the call raises nothing: the pairs of the
first `outHeaderCount` headers, and then `null`s. -/
theorem getRequestHeaders_eq (h : ¬ (ctrl.outHeaders = [] ∨ ctrl.outHeaderCount = 0))
    (hreturns : (ctrl.getRequestHeaders platform alloc).env.pending = none) :
    ∃ n, (ctrl.getRequestHeaders platform alloc).strArray =
      some ((ctrl.outHeaders.take ctrl.outHeaderCount).flatMap (headerStrings platform) ++
        List.replicate n none) := by
  have hcapacity : ¬ (ctrl.outHeaders = [] ∨ ctrl.outHeaderCount * 2 = 0) := by
    rintro (hnil | hzero)
    · exact h (.inl hnil)
    · exact h (.inr (by omega))
  have hvalued : numValued (ctrl.outHeaders.take ctrl.outHeaderCount) ≤ ctrl.outHeaderCount :=
    List.countP_le_length.trans (List.length_take_le _ _)
  have hstart : WrittenOut ctrl.env
      ⟨List.replicate (ctrl.outHeaderCount * 2) none, 0, [], ctrl.env⟩ []
      ((ctrl.outHeaderCount * 2 - 2 * numValued (ctrl.outHeaders.take ctrl.outHeaderCount)) +
        2 * numValued (ctrl.outHeaders.take ctrl.outHeaderCount)) := by
    rw [Nat.sub_add_cancel (by omega)]
    exact ⟨rfl, rfl, by simp, rfl⟩
  unfold getRequestHeaders at hreturns ⊢
  dsimp only at hreturns ⊢
  rw [if_neg hcapacity] at hreturns ⊢
  by_cases htemp : alloc.tempBuffer = false
  · rw [if_pos htemp] at hreturns
    exact absurd hreturns (JNIEnv.pending_throw _ _)
  rw [if_neg htemp] at hreturns ⊢
  by_cases harray : alloc.strArray = false
  · rw [if_pos harray] at hreturns
    exact absurd hreturns (JNIEnv.pending_throw _ _)
  rw [if_neg harray] at hreturns ⊢
  by_cases hframe : 5 < ctrl.outHeaderCount ∧ alloc.localFrame = false
  · rw [if_pos hframe] at hreturns
    exact absurd hreturns (JNIEnv.pending_throw _ _)
  rw [if_neg hframe] at hreturns ⊢
  rcases WrittenOut.writeRequestHeaders platform alloc _ _ _ hstart with
    ⟨w, hwrite, hw⟩ | ⟨w, hwrite, hpending⟩
  · refine ⟨ctrl.outHeaderCount * 2 - 2 * numValued (ctrl.outHeaders.take ctrl.outHeaderCount), ?_⟩
    rw [hwrite]
    exact congrArg some hw.strArray
  · rw [hwrite] at hreturns
    exact absurd hreturns hpending

/-! ## Against the list -/

/-- The list holds these headers. -/
def Lists (ctrl : CurlData) (entries : List RequestEntry) : Prop :=
  ctrl.outHeaders.map cString = entries.map RequestEntry.text

/-- What is returned shows the headers: `NULL` only if none has a value, and else their
pairs in front of the first `null`. -/
def ReadBack (entries : List RequestEntry) : Option (List (Option JString)) → Prop
  | none => ∀ e ∈ entries, e.value = none
  | some strArray => strArray.takeWhile Option.isSome = entries.flatMap RequestEntry.pair

/-- What is returned shows the headers of the list. -/
def ReadsBack (ctrl : CurlData) (strArray : Option (List (Option JString))) : Prop :=
  ∃ entries, Lists ctrl entries ∧ ReadBack entries strArray

/-- The name of the header ends before the text does. -/
def Separated (data : List UInt8) : Prop := 58 ∈ cString data ∨ 59 ∈ cString data

instance decidableSeparated (data : List UInt8) : Decidable (Separated data) :=
  inferInstanceAs (Decidable (_ ∨ _))

/-- A header whose name ends is one of the three forms. -/
def Formed (data : List UInt8) : Prop := Separated data → ∃ e : RequestEntry, cString data = e.text

theorem exists_lists {outHeaders : List (List UInt8)}
    (h : ∀ data ∈ outHeaders, ∃ e : RequestEntry, cString data = e.text) :
    ∃ entries : List RequestEntry, outHeaders.map cString = entries.map RequestEntry.text := by
  induction outHeaders with
  | nil => exact ⟨[], rfl⟩
  | cons data rest ih =>
    obtain ⟨e, he⟩ := h data List.mem_cons_self
    obtain ⟨entries, hrest⟩ := ih fun d hd => h d (List.mem_cons_of_mem _ hd)
    exact ⟨e :: entries, by rw [List.map_cons, List.map_cons, he, hrest]⟩

theorem separated_of_text {e : RequestEntry} {data : List UInt8} (h : cString data = e.text) :
    Separated data := by
  unfold Separated
  rw [h, RequestEntry.text]
  rcases e.value with _ | ⟨_ | ⟨c, value⟩⟩ <;> simp

/-- The pairs of a part of the list are those of its headers. -/
theorem flatMap_headerStrings (platform : Platform) {outHeaders : List (List UInt8)}
    {entries : List RequestEntry}
    (h : outHeaders.map cString = entries.map RequestEntry.text) :
    outHeaders.flatMap (headerStrings platform) = entries.flatMap RequestEntry.pair := by
  induction outHeaders generalizing entries with
  | nil =>
    rw [List.map_eq_nil_iff.mp h.symm]
    rfl
  | cons data rest ih =>
    cases entries with
    | nil => cases h
    | cons e entries =>
      obtain ⟨hdata, hrest⟩ := List.cons.inj h
      rw [List.flatMap_cons, List.flatMap_cons, headerStrings_eq platform hdata, ih hrest]

/-- The stubs are the headers without a value. -/
theorem valued_iff_value {outHeaders : List (List UInt8)} {entries : List RequestEntry}
    (h : outHeaders.map cString = entries.map RequestEntry.text) :
    (∀ data ∈ outHeaders, valued data = false) ↔ ∀ e ∈ entries, e.value = none := by
  induction outHeaders generalizing entries with
  | nil =>
    rw [List.map_eq_nil_iff.mp h.symm]
    exact iff_of_true nofun nofun
  | cons data rest ih =>
    cases entries with
    | nil => cases h
    | cons e entries =>
      obtain ⟨hdata, hrest⟩ := List.cons.inj h
      rw [List.forall_mem_cons, List.forall_mem_cons, ih hrest, RequestEntry.valued_eq hdata,
        Option.isSome_eq_false_iff, Option.isNone_iff_eq_none]

theorem pairs_eq_nil_iff {entries : List RequestEntry} :
    entries.flatMap RequestEntry.pair = [] ↔ ∀ e ∈ entries, e.value = none := by
  rw [List.flatMap_eq_nil_iff]
  exact forall₂_congr fun e _ => RequestEntry.pair_eq_nil_iff

/-- In front of the `null`s stand the pairs. -/
theorem takeWhile_pairs (entries : List RequestEntry) (n : Nat) :
    (entries.flatMap RequestEntry.pair ++ List.replicate n none).takeWhile Option.isSome =
      entries.flatMap RequestEntry.pair := by
  have hpairs : ∀ x ∈ entries.flatMap RequestEntry.pair, x.isSome = true := by
    intro x hx
    obtain ⟨e, -, he⟩ := List.mem_flatMap.mp hx
    unfold RequestEntry.pair at he
    cases hvalue : e.value <;> rw [hvalue] at he
    · cases he
    · rcases List.mem_cons.mp he with rfl | he
      · rfl
      · rw [List.mem_singleton.mp he]
        rfl
  rw [List.takeWhile_append_of_pos hpairs, List.takeWhile_replicate]
  simp

/-- **What is lost are the headers behind the first `outHeaderCount` ones.** -/
theorem readBack_iff {entries : List RequestEntry} (hlists : Lists ctrl entries)
    (hreturns : (ctrl.getRequestHeaders platform alloc).env.pending = none) :
    ReadBack entries (ctrl.getRequestHeaders platform alloc).strArray ↔
      ∀ data ∈ ctrl.outHeaders.drop ctrl.outHeaderCount, valued data = false := by
  have hfront : (ctrl.outHeaders.take ctrl.outHeaderCount).map cString =
      (entries.take ctrl.outHeaderCount).map RequestEntry.text := by
    rw [List.map_take, List.map_take, hlists]
  have hback : (ctrl.outHeaders.drop ctrl.outHeaderCount).map cString =
      (entries.drop ctrl.outHeaderCount).map RequestEntry.text := by
    rw [List.map_drop, List.map_drop, hlists]
  rw [valued_iff_value hback]
  by_cases hnull : ctrl.outHeaders = [] ∨ ctrl.outHeaderCount = 0
  · rw [getRequestHeaders_null hnull]
    rcases hnull with hnil | hzero
    · have hentries : entries = [] := by
        unfold Lists at hlists
        rw [hnil] at hlists
        exact List.map_eq_nil_iff.mp hlists.symm
      rw [hentries, List.drop_nil]
      rfl
    · rw [hzero]
      rfl
  · obtain ⟨n, harray⟩ := getRequestHeaders_eq hnull hreturns
    rw [harray, flatMap_headerStrings platform hfront, ← pairs_eq_nil_iff]
    unfold ReadBack
    dsimp only
    have hsplit : entries.flatMap RequestEntry.pair =
        (entries.take ctrl.outHeaderCount).flatMap RequestEntry.pair ++
          (entries.drop ctrl.outHeaderCount).flatMap RequestEntry.pair := by
      rw [← List.flatMap_append, List.take_append_drop]
    rw [takeWhile_pairs, hsplit, List.self_eq_append_right]

/-! ## Over the calls -/

/-- An ASCII name without `:` and `;`. -/
def PlainName (key : JString) : Prop := ∀ c ∈ key, c < 128 ∧ c ≠ 58 ∧ c ≠ 59

/-- An ASCII text. -/
def Ascii (text : JString) : Prop := ∀ c ∈ text, c < 128

/-- The names are ASCII without `:` and `;`, and the values are ASCII. -/
def RequestCall.Plain : RequestCall → Prop
  | .setHeader key value => PlainName key ∧ ∀ text ∈ value, Ascii text
  | .addHeader key value => PlainName key ∧ Ascii value
  | .clearHeaders => True

theorem mem_narrow {key : JString} {b : UInt8} (h : b ∈ narrow key) :
    ∃ c ∈ key, b = c.toUInt8 := by
  obtain ⟨c, hc, rfl⟩ := List.mem_map.mp h
  exact ⟨c, hc, rfl⟩

theorem toUInt8_ascii {c : UInt16} (h : c < 128) : c.toUInt8.toNat = c.toNat := by
  have hlt : c.toNat < 128 := h
  rw [UInt16.toNat_toUInt8]
  omega

theorem narrow_plain {key : JString} (h : PlainName key) :
    ∀ b ∈ narrow key, b ≠ 58 ∧ b ≠ 59 ∧ b < 128 := by
  intro b hb
  obtain ⟨c, hc, rfl⟩ := mem_narrow hb
  obtain ⟨hascii, hcolon, hsemicolon⟩ := h c hc
  have hnat := toUInt8_ascii hascii
  refine ⟨fun he => hcolon ?_, fun he => hsemicolon ?_, ?_⟩
  · exact UInt16.toNat_inj.mp (by rw [← hnat, he]; rfl)
  · exact UInt16.toNat_inj.mp (by rw [← hnat, he]; rfl)
  · exact UInt8.lt_iff_toNat_lt.mpr (by rw [hnat]; exact hascii)

theorem narrow_ascii {text : JString} (h : Ascii text) : ∀ b ∈ narrow text, b < 128 := by
  intro b hb
  obtain ⟨c, hc, rfl⟩ := mem_narrow hb
  exact UInt8.lt_iff_toNat_lt.mpr (by rw [toUInt8_ascii (h c hc)]; exact h c hc)

/-- A name that is cut at a NUL does not end. -/
theorem formed_cut {key : JString} {rest : List UInt8} (hkey : PlainName key)
    (hnul : 0 ∈ narrow key) : Formed (narrow key ++ rest) := by
  rintro (hcolon | hsemicolon)
  · rw [cString_append_of_mem hnul] at hcolon
    exact absurd rfl (narrow_plain hkey _ (List.takeWhile_subset _ hcolon)).1
  · rw [cString_append_of_mem hnul] at hsemicolon
    exact absurd rfl (narrow_plain hkey _ (List.takeWhile_subset _ hsemicolon)).2.1

/-- A header with a value, or a stub: what stands behind the name is cut at a NUL too. -/
theorem formed_of_colon {key : JString} {value : List UInt8} (hkey : PlainName key)
    (hvalue : ∀ c ∈ value, c < 128) : Formed (narrow key ++ 58 :: value) := by
  by_cases hnul : 0 ∈ narrow key
  · exact formed_cut hkey hnul
  intro _
  have hname : ∀ c ∈ narrow key, c ≠ 0 ∧ c ≠ 58 ∧ c ≠ 59 ∧ c < 128 :=
    fun c hc => ⟨fun he => hnul (he ▸ hc), narrow_plain hkey c hc⟩
  have htext : ∀ c ∈ cString value, c ≠ 0 ∧ c < 128 := fun c hc =>
    ⟨fun he => nul_notMem_cString value (he ▸ hc), hvalue c (List.takeWhile_subset _ hc)⟩
  have hcut : cString (narrow key ++ 58 :: value) = narrow key ++ 58 :: cString value := by
    rw [cString_append hnul, cString_cons (by decide)]
  generalize cString value = value at htext hcut
  cases value with
  | nil => exact ⟨⟨narrow key, none, hname, nofun⟩, hcut⟩
  | cons c rest =>
    refine ⟨⟨narrow key, some (c :: rest), hname, ?_⟩, hcut⟩
    rintro text ⟨⟩
    exact htext

theorem formed_entryText {key value : JString} (hkey : PlainName key) (hvalue : Ascii value) :
    Formed (entryText key value) := by
  unfold entryText
  cases value with
  | cons c value => exact formed_of_colon hkey (narrow_ascii hvalue)
  | nil =>
    by_cases hnul : 0 ∈ narrow key
    · exact formed_cut hkey hnul
    intro _
    have hname : ∀ c ∈ narrow key, c ≠ 0 ∧ c ≠ 58 ∧ c ≠ 59 ∧ c < 128 :=
      fun c hc => ⟨fun he => hnul (he ▸ hc), narrow_plain hkey c hc⟩
    refine ⟨⟨narrow key, some [], hname, ?_⟩, ?_⟩
    · rintro text ⟨⟩
      nofun
    · rw [if_pos (by rfl), cString_append hnul]
      rfl

theorem formed_cString {data : List UInt8} (h : Formed data) : Formed (cString data) := by
  unfold Formed Separated at *
  rw [cString_cString]
  exact h

theorem formed_stubText {key : JString} (hkey : PlainName key) : Formed (stubText key) :=
  formed_cString (formed_of_colon hkey nofun)

/-- A plain call leaves headers of these forms. -/
theorem formed_apply {call : RequestCall} (hplain : call.Plain)
    (hsmall : ctrl.outHeaderCount < 2 ^ 16) (h : ∀ data ∈ ctrl.outHeaders, Formed data) :
    ∀ data ∈ (call.apply ctrl).outHeaders, Formed data := by
  rcases call.apply_cases hsmall with rfl | ⟨key, value, rfl, happly⟩ |
    ⟨key, value, rfl, _, happly⟩ | ⟨key, value, before, old, after, rfl, hlist, _, _, happly⟩ |
    ⟨key, _, _, rfl, _, _, happly⟩ | ⟨key, rfl, _, happly⟩
  · exact nofun
  all_goals rw [happly]
  · rw [List.forall_mem_append, List.forall_mem_singleton]
    exact ⟨h, formed_cString (formed_entryText hplain.1 hplain.2)⟩
  · rw [List.forall_mem_append, List.forall_mem_singleton]
    exact ⟨h, formed_entryText hplain.1 (hplain.2 value rfl)⟩
  · rw [hlist, List.forall_mem_append, List.forall_mem_cons] at h
    rw [List.forall_mem_append, List.forall_mem_cons]
    exact ⟨h.1, formed_entryText hplain.1 (hplain.2 value rfl), h.2.2⟩
  · rw [List.forall_mem_singleton]
    exact formed_stubText hplain.1
  · rw [List.forall_mem_append, List.forall_mem_singleton]
    exact ⟨fun data hdata => h data (List.mem_of_mem_filter hdata), formed_stubText hplain.1⟩

theorem formed_requestCalls {calls : List RequestCall} (hplain : ∀ call ∈ calls, call.Plain) :
    ∀ data ∈ (requestCalls nativeCreate calls).outHeaders, Formed data := by
  have hrun := Runs.run_invariant
    (I := fun ctrl => ctrl.outHeaderCount < 2 ^ 16 ∧ ∀ data ∈ ctrl.outHeaders, Formed data)
    (fun ctrl call => call.apply ctrl)
    (fun ctrl call h (hcall : call.Plain) =>
      ⟨outHeaderCount_apply_lt h.1 call, formed_apply hcall h.1 h.2⟩)
    calls nativeCreate ⟨by decide, nofun⟩ hplain
  exact hrun.2

/-- **The request headers read back**: after calls with plain names and values, what
`getRequestHeaders` returns shows the headers of the list exactly when no name was cut at
a NUL and all headers behind the first `outHeaderCount` ones are stubs. -/
theorem reads_back_iff (calls : List RequestCall) (hplain : ∀ call ∈ calls, call.Plain)
    (platform : Platform) (alloc : ArrayAlloc)
    (hreturns : ((requestCalls nativeCreate calls).getRequestHeaders platform alloc).env.pending =
      none) :
    ReadsBack (requestCalls nativeCreate calls)
        ((requestCalls nativeCreate calls).getRequestHeaders platform alloc).strArray ↔
      (∀ data ∈ (requestCalls nativeCreate calls).outHeaders, Separated data) ∧
        ∀ data ∈ (requestCalls nativeCreate calls).outHeaders.drop
          (requestCalls nativeCreate calls).outHeaderCount, valued data = false := by
  have hformed := formed_requestCalls hplain
  constructor
  · rintro ⟨entries, hlists, hback⟩
    refine ⟨?_, (readBack_iff hlists hreturns).mp hback⟩
    intro data hdata
    have hmem : cString data ∈ entries.map RequestEntry.text := by
      rw [← hlists]
      exact List.mem_map_of_mem hdata
    obtain ⟨e, -, he⟩ := List.mem_map.mp hmem
    exact separated_of_text he.symm
  · rintro ⟨hseparated, hstubs⟩
    obtain ⟨entries, hlists⟩ := exists_lists fun data hdata =>
      hformed data hdata (hseparated data hdata)
    exact ⟨entries, hlists, (readBack_iff hlists hreturns).mpr hstubs⟩

/-- A header with a value, one with an empty value, and a stub. -/
def threeForms : List RequestCall :=
  [.addHeader [97] [49], .setHeader [98] (some []), .setHeader [99] none]

theorem reads_back_threeForms :
    ReadsBack (requestCalls nativeCreate threeForms)
      ((requestCalls nativeCreate threeForms).getRequestHeaders latinPlatform
        ⟨true, true, true, fun _ => true⟩).strArray :=
  (reads_back_iff threeForms (by simp [threeForms, RequestCall.Plain, PlainName, Ascii]) latinPlatform
    ⟨true, true, true, fun _ => true⟩ (by decide)).mpr (by decide)

/-- `Expect` is suppressed, as on every connection, and a header is set behind the stub:
the loop meets the stub, and has no room left. -/
def afterExpect : List RequestCall :=
  [.setHeader [69, 120, 112, 101, 99, 116] none, .setHeader [97] (some [49])]

theorem not_reads_back_afterExpect :
    ¬ ReadsBack (requestCalls nativeCreate afterExpect)
      ((requestCalls nativeCreate afterExpect).getRequestHeaders latinPlatform
        ⟨true, true, true, fun _ => true⟩).strArray := by
  rintro ⟨entries, hlists, hback⟩
  have hstubs := (readBack_iff hlists (by decide)).mp hback
  revert hstubs
  decide

end CurlData

end Chttpc
