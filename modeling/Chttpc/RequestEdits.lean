import Chttpc.HeaderArray
import Chttpc.RequestHeaders
import Chttpc.Runs

/-!
# What the calls do to the list of request headers

`setHeader` goes through the list once, and what it does there depends on where the
headers are that begin with its key.  With a value it rewrites the last of them, or
appends a header if there is none.  Without a value it takes them out and appends a
stub, unless one of them is the head of the list: then the whole list is dropped, and
nothing is counted.

`outHeaderCount` is meant to be the number of headers that carry a value, the stubs
of the form `Name:` apart.  `counts_values_iff` says which calls keep it so.
-/

namespace Chttpc
namespace CurlData

/-- The text of a header with a value. -/
def entryText (key value : JString) : List UInt8 :=
  narrow key ++ (if value.length = 0 then 59 else 58) :: narrow value

/-- The text of a stub, as `curl_slist_append` copies it. -/
def stubText (key : JString) : List UInt8 := cString (narrow key ++ [58])

/-- The comparison of `setHeader`: the text begins with the key, in any case. -/
def beginsWith (key : JString) (data : List UInt8) : Bool :=
  strncasecmpZero (narrow key) data (narrow key).length

/-! ## The scan -/

section Scan
variable {key : List UInt8} {hasValue : Bool} {before after outHeaders : List (List UInt8)}
  {old : List UInt8}

theorem scanHeaders_none (h : ∀ data ∈ outHeaders, strncasecmpZero key data key.length = false)
    (scanned : Scanned) :
    scanHeaders key hasValue scanned outHeaders =
      { scanned with kept := scanned.kept ++ outHeaders } := by
  induction outHeaders generalizing scanned with
  | nil => rw [scanHeaders, List.append_nil]
  | cons data rest ih =>
    have hdata := h data List.mem_cons_self
    rw [scanHeaders, if_neg (by simp [hdata]), ih fun d hd => h d (List.mem_cons_of_mem _ hd)]
    simp

/-- With a value, everything is kept. -/
theorem scanHeaders_append (scanned : Scanned) :
    ∃ newHeader, scanHeaders key true scanned (before ++ after) =
      scanHeaders key true { scanned with kept := scanned.kept ++ before, newHeader } after := by
  induction before generalizing scanned with
  | nil => exact ⟨scanned.newHeader, by simp⟩
  | cons data rest ih =>
    rw [List.cons_append, scanHeaders]
    by_cases hdata : strncasecmpZero key data key.length = true
    · rw [if_pos hdata, if_pos rfl]
      obtain ⟨newHeader, hrest⟩ := ih { scanned with
        kept := scanned.kept ++ [data], newHeader := some scanned.kept.length }
      refine ⟨newHeader, ?_⟩
      rw [hrest]
      simp
    · rw [if_neg hdata]
      obtain ⟨newHeader, hrest⟩ := ih { scanned with kept := scanned.kept ++ [data] }
      refine ⟨newHeader, ?_⟩
      rw [hrest]
      simp

/-- With a value, the scan ends with the last match. -/
theorem scanHeaders_last (hold : strncasecmpZero key old key.length = true)
    (hafter : ∀ data ∈ after, strncasecmpZero key data key.length = false) (count : Nat) :
    scanHeaders key true ⟨[], none, count⟩ (before ++ old :: after) =
      ⟨before ++ old :: after, some before.length, count⟩ := by
  obtain ⟨newHeader, hscan⟩ : ∃ newHeader,
      scanHeaders key true ⟨[], none, count⟩ (before ++ old :: after) =
        scanHeaders key true ⟨[] ++ before, newHeader, count⟩ (old :: after) :=
    scanHeaders_append _
  rw [hscan, scanHeaders, if_pos hold, if_pos rfl, scanHeaders_none hafter]
  simp

/-- Without a value, the matches behind a header that stays are taken out, and counted
down. -/
theorem scanHeaders_remove (scanned : Scanned) (hkept : scanned.kept ≠ []) :
    ∃ count, scanHeaders key false scanned outHeaders =
      ⟨scanned.kept ++ outHeaders.filter fun data => !strncasecmpZero key data key.length,
        scanned.newHeader, count⟩ ∧
      (scanned.outHeaderCount < 2 ^ 16 →
        count = toUInt16 (scanned.outHeaderCount +
          65535 * outHeaders.countP fun data => strncasecmpZero key data key.length)) := by
  induction outHeaders generalizing scanned with
  | nil =>
    refine ⟨scanned.outHeaderCount, by simp [scanHeaders], fun hsmall => ?_⟩
    rw [List.countP_nil, toUInt16]
    omega
  | cons data rest ih =>
    rw [scanHeaders]
    by_cases hdata : strncasecmpZero key data key.length = true
    · rw [if_pos hdata, if_neg (by decide), if_neg hkept]
      obtain ⟨count, hrest, hcount⟩ :=
        ih { scanned with outHeaderCount := toUInt16 (scanned.outHeaderCount + 65535) } hkept
      refine ⟨count, ?_, fun _ => ?_⟩
      · rw [hrest, List.filter_cons_of_neg (by simp [hdata])]
      · rw [hcount (Nat.mod_lt _ (by decide)), List.countP_cons, if_pos hdata]
        simp only [toUInt16]
        omega
    · rw [if_neg hdata]
      obtain ⟨count, hrest, hcount⟩ := ih { scanned with kept := scanned.kept ++ [data] } (by simp)
      refine ⟨count, ?_, fun hsmall => ?_⟩
      · rw [hrest, List.filter_cons_of_pos (by simp [hdata])]
        simp
      · rw [hcount hsmall, List.countP_cons, if_neg hdata, Nat.add_zero]

end Scan

/-- The last element of a kind, if there is one. -/
theorem exists_last {α : Type} (p : α → Bool) (l : List α) :
    (∀ a ∈ l, p a = false) ∨
      ∃ before old after, l = before ++ old :: after ∧ p old = true ∧ ∀ a ∈ after, p a = false := by
  induction l with
  | nil => exact .inl nofun
  | cons a l ih =>
    rcases ih with hnone | ⟨before, old, after, rfl, hold, hafter⟩
    · by_cases ha : p a = true
      · exact .inr ⟨[], a, l, rfl, ha, hnone⟩
      · refine .inl fun b hb => ?_
        rcases List.mem_cons.mp hb with rfl | hb
        · exact Bool.not_eq_true _ ▸ ha
        · exact hnone b hb
    · exact .inr ⟨a :: before, old, after, rfl, hold, hafter⟩

/-! ## The calls -/

/-- All allocations of a call succeed. -/
def allocOk : HeaderAlloc := ⟨true, true⟩

section Calls
variable {ctrl : CurlData} {key value : JString} {before after rest : List (List UInt8)}
  {old first : List UInt8}

/-- A key nothing begins with is appended. -/
theorem setHeader_append (h : ∀ data ∈ ctrl.outHeaders, beginsWith key data = false) :
    ctrl.setHeader allocOk key (some value) = some { ctrl with
      outHeaders := ctrl.outHeaders ++ [entryText key value]
      outHeaderCount := toUInt16 (ctrl.outHeaderCount + 1) } := by
  unfold setHeader
  rw [if_neg (by decide), Option.isSome_some, scanHeaders_none h]
  rfl

/-- **The last header that begins with the key is rewritten**, and the count stays. -/
theorem setHeader_overwrite (hlist : ctrl.outHeaders = before ++ old :: after)
    (hold : beginsWith key old = true) (hafter : ∀ data ∈ after, beginsWith key data = false) :
    ctrl.setHeader allocOk key (some value) = some { ctrl with
      outHeaders := before ++ entryText key value :: after } := by
  unfold setHeader
  rw [if_neg (by decide), Option.isSome_some, hlist, scanHeaders_last hold hafter]
  dsimp only
  rw [List.set_append_right _ _ (Nat.le_refl _), Nat.sub_self, List.set_cons_zero]
  rfl

/-- **A head that begins with the key takes the whole list with it**, and the count stays. -/
theorem setHeader_dropAll (hlist : ctrl.outHeaders = first :: rest)
    (hfirst : beginsWith key first = true) :
    ctrl.setHeader allocOk key none = some { ctrl with outHeaders := [stubText key] } := by
  have hmatch : strncasecmpZero (narrow key) first (narrow key).length = true := hfirst
  unfold setHeader
  rw [if_neg (by decide), Option.isSome_none, hlist, scanHeaders, if_pos hmatch,
    if_neg (by decide), if_pos rfl]
  rfl

/-- Headers behind the head are taken out one by one. -/
theorem setHeader_remove (hfirst : ∀ data, ctrl.outHeaders.head? = some data →
      beginsWith key data = false) (hsmall : ctrl.outHeaderCount < 2 ^ 16) :
    ctrl.setHeader allocOk key none = some { ctrl with
      outHeaders := ctrl.outHeaders.filter (fun data => !beginsWith key data) ++ [stubText key]
      outHeaderCount :=
        toUInt16 (ctrl.outHeaderCount + 65535 * ctrl.outHeaders.countP (beginsWith key)) } := by
  unfold setHeader
  rw [if_neg (by decide), Option.isSome_none]
  cases hlist : ctrl.outHeaders with
  | nil =>
    have hcount : toUInt16 ctrl.outHeaderCount = ctrl.outHeaderCount := Nat.mod_eq_of_lt hsmall
    rw [scanHeaders, List.filter_nil, List.countP_nil, Nat.mul_zero, Nat.add_zero, hcount]
    rfl
  | cons data rest =>
    have hdata : beginsWith key data = false := hfirst data (by rw [hlist]; rfl)
    obtain ⟨count, hscan, hcount⟩ :=
      scanHeaders_remove ⟨[data], none, ctrl.outHeaderCount⟩ (List.cons_ne_nil data [])
    have hcount : count = toUInt16 (ctrl.outHeaderCount + 65535 * rest.countP (beginsWith key)) :=
      hcount hsmall
    have hkept : [data] ++ rest.filter (fun data => !beginsWith key data) =
        (data :: rest).filter fun data => !beginsWith key data := by
      rw [List.filter_cons_of_pos (by simp [hdata])]
      rfl
    have hnot : ¬ strncasecmpZero (narrow key) data (narrow key).length = true := by
      rw [show strncasecmpZero (narrow key) data (narrow key).length = false from hdata]
      decide
    rw [scanHeaders, if_neg hnot, List.nil_append, hscan, List.countP_cons_of_neg (by simp [hdata]),
      ← hcount, ← hkept]
    rfl

end Calls

/-- A call that changes the request headers. -/
inductive RequestCall
  | setHeader (key : JString) (value : Option JString)
  | addHeader (key value : JString)
  | clearHeaders

/-- The call, with memory for what it allocates. -/
def RequestCall.apply (ctrl : CurlData) : RequestCall → CurlData
  | .setHeader key value => (ctrl.setHeader allocOk key value).getD ctrl
  | .addHeader key value => ctrl.addHeader allocOk key value
  | .clearHeaders => ctrl.clearHeaders

/-- What a call makes of the list and the count.  A header is appended, takes the place of
another, or goes with all that begin with its key or with the whole list. -/
theorem RequestCall.apply_cases {ctrl : CurlData} (hsmall : ctrl.outHeaderCount < 2 ^ 16)
    (call : RequestCall) :
    call = .clearHeaders ∨
    (∃ key value, call = .addHeader key value ∧ call.apply ctrl = { ctrl with
      outHeaders := ctrl.outHeaders ++ [cString (entryText key value)]
      outHeaderCount := toUInt16 (ctrl.outHeaderCount + 1) }) ∨
    (∃ key value, call = .setHeader key (some value) ∧
      (∀ data ∈ ctrl.outHeaders, beginsWith key data = false) ∧ call.apply ctrl = { ctrl with
      outHeaders := ctrl.outHeaders ++ [entryText key value]
      outHeaderCount := toUInt16 (ctrl.outHeaderCount + 1) }) ∨
    (∃ key value before old after, call = .setHeader key (some value) ∧
      ctrl.outHeaders = before ++ old :: after ∧ beginsWith key old = true ∧
      (∀ data ∈ after, beginsWith key data = false) ∧ call.apply ctrl = { ctrl with
      outHeaders := before ++ entryText key value :: after }) ∨
    (∃ key first rest, call = .setHeader key none ∧ ctrl.outHeaders = first :: rest ∧
      beginsWith key first = true ∧ call.apply ctrl = { ctrl with outHeaders := [stubText key] }) ∨
    (∃ key, call = .setHeader key none ∧
      (∀ data, ctrl.outHeaders.head? = some data → beginsWith key data = false) ∧
      call.apply ctrl = { ctrl with
      outHeaders := ctrl.outHeaders.filter (fun data => !beginsWith key data) ++ [stubText key]
      outHeaderCount :=
        toUInt16 (ctrl.outHeaderCount + 65535 * ctrl.outHeaders.countP (beginsWith key)) }) := by
  cases call with
  | clearHeaders => exact .inl rfl
  | addHeader key value =>
    refine .inr (.inl ⟨key, value, rfl, ?_⟩)
    rw [RequestCall.apply, CurlData.addHeader, if_neg (by simp [allocOk])]
    rfl
  | setHeader key value =>
    cases value with
    | some value =>
      rcases exists_last (beginsWith key) ctrl.outHeaders with
        hnone | ⟨before, old, after, hlist, hold, hafter⟩
      · refine .inr (.inr (.inl ⟨key, value, rfl, hnone, ?_⟩))
        rw [RequestCall.apply, setHeader_append hnone]
        rfl
      · refine .inr (.inr (.inr (.inl ⟨key, value, before, old, after, rfl, hlist, hold, hafter, ?_⟩)))
        rw [RequestCall.apply, setHeader_overwrite hlist hold hafter]
        rfl
    | none =>
      by_cases hfirst : ∃ first, ctrl.outHeaders.head? = some first ∧ beginsWith key first = true
      · obtain ⟨first, hhead, hmatch⟩ := hfirst
        obtain ⟨rest, hlist⟩ := List.head?_eq_some_iff.mp hhead
        refine .inr (.inr (.inr (.inr (.inl ⟨key, first, rest, rfl, hlist, hmatch, ?_⟩))))
        rw [RequestCall.apply, setHeader_dropAll hlist hmatch]
        rfl
      · have hnot : ∀ data, ctrl.outHeaders.head? = some data → beginsWith key data = false :=
          fun data hhead => Bool.eq_false_iff.mpr fun hmatch => hfirst ⟨data, hhead, hmatch⟩
        refine .inr (.inr (.inr (.inr (.inr ⟨key, rfl, hnot, ?_⟩))))
        rw [RequestCall.apply, setHeader_remove hnot hsmall]
        rfl

theorem outHeaderCount_apply_lt {ctrl : CurlData} (h : ctrl.outHeaderCount < 2 ^ 16)
    (call : RequestCall) : (call.apply ctrl).outHeaderCount < 2 ^ 16 := by
  have hmod : ∀ n, toUInt16 n < 2 ^ 16 := fun n => Nat.mod_lt n (by decide)
  rcases call.apply_cases h with rfl | ⟨_, _, _, happly⟩ | ⟨_, _, _, _, happly⟩ |
    ⟨_, _, _, _, _, _, _, _, _, happly⟩ | ⟨_, _, _, _, _, _, happly⟩ | ⟨_, _, _, happly⟩
  · exact Nat.two_pow_pos 16
  all_goals rw [happly]
  · exact hmod _
  · exact hmod _
  · exact h
  · exact h
  · exact hmod _

/-! ## The count -/

/-- The header carries a value: it is not a stub of the form `Name:`. -/
def valued (data : List UInt8) : Bool := (requestHeader data).isSome

/-- The headers that carry a value. -/
def numValued (outHeaders : List (List UInt8)) : Nat := outHeaders.countP valued

theorem numValued_concat (outHeaders : List (List UInt8)) (data : List UInt8) :
    numValued (outHeaders ++ [data]) = numValued outHeaders + if valued data then 1 else 0 := by
  rw [numValued, List.countP_append, List.countP_singleton]
  rfl

@[simp] theorem valued_cString (data : List UInt8) : valued (cString data) = valued data := by
  unfold valued requestHeader
  rw [cString_cString]

/-- The last header that begins with the key. -/
def lastBeginning (key : JString) (outHeaders : List (List UInt8)) : Option (List UInt8) :=
  outHeaders.reverse.find? (beginsWith key)

theorem lastBeginning_none {key : JString} {outHeaders : List (List UInt8)}
    (h : ∀ data ∈ outHeaders, beginsWith key data = false) :
    lastBeginning key outHeaders = none := by
  rw [lastBeginning, List.find?_eq_none]
  intro data hdata
  rw [h data (List.mem_reverse.mp hdata)]
  decide

theorem lastBeginning_last {key : JString} {before after : List (List UInt8)} {old : List UInt8}
    (hold : beginsWith key old = true) (hafter : ∀ data ∈ after, beginsWith key data = false) :
    lastBeginning key (before ++ old :: after) = some old := by
  have hnone : after.reverse.find? (beginsWith key) = none := lastBeginning_none hafter
  rw [lastBeginning, List.reverse_append, List.reverse_cons, List.append_assoc, List.find?_append,
    hnone, List.singleton_append, List.find?_cons_of_pos hold]
  rfl

/-- The call changes the number of values by as much as it changes the count.  A value
counts where it is appended, and not where it takes the place of a stub; a header that is
removed counts whether it is a stub or not; and nothing counts when the head of the list
takes the rest with it. -/
def RequestCall.KeepsCount (ctrl : CurlData) : RequestCall → Prop
  | .setHeader key (some value) =>
      valued (entryText key value) = match lastBeginning key ctrl.outHeaders with
        | some old => valued old
        | none => true
  | .setHeader key none =>
      if ctrl.outHeaders.head?.any (beginsWith key) then
        numValued ctrl.outHeaders = numValued [stubText key]
      else
        (∀ data ∈ ctrl.outHeaders, beginsWith key data = true → valued data = true) ∧
          valued (stubText key) = false
  | .addHeader key value => valued (entryText key value) = true
  | .clearHeaders => True

instance RequestCall.decidableKeepsCount (ctrl : CurlData) :
    (call : RequestCall) → Decidable (call.KeepsCount ctrl)
  | .setHeader _ (some _) => inferInstanceAs (Decidable (_ = _))
  | .setHeader key none => inferInstanceAs (Decidable (
      if ctrl.outHeaders.head?.any (beginsWith key) then
        numValued ctrl.outHeaders = numValued [stubText key]
      else
        (∀ data ∈ ctrl.outHeaders, beginsWith key data = true → valued data = true) ∧
          valued (stubText key) = false))
  | .addHeader _ _ => inferInstanceAs (Decidable (_ = _))
  | .clearHeaders => inferInstanceAs (Decidable True)

/-- The count is the number of headers that carry a value.  So a count of zero says that
there are none. -/
structure CountsValues (ctrl : CurlData) : Prop where
  count : ctrl.outHeaderCount = numValued ctrl.outHeaders
  zero : ctrl.outHeaderCount = 0 → ∀ data ∈ ctrl.outHeaders, valued data = false

theorem countsValues_iff (ctrl : CurlData) :
    CountsValues ctrl ↔ ctrl.outHeaderCount = numValued ctrl.outHeaders := by
  refine ⟨CountsValues.count, fun h => ⟨h, fun hzero data hdata => ?_⟩⟩
  have hnone := List.countP_eq_zero.mp (h.symm.trans hzero) data hdata
  exact Bool.not_eq_true _ ▸ hnone

section Step
variable {ctrl : CurlData} {key value : JString}

theorem count_setHeader_value (hcount : ctrl.outHeaderCount = numValued ctrl.outHeaders)
    (hfew : (RequestCall.apply ctrl (.setHeader key (some value))).outHeaders.length < 2 ^ 16) :
    CountsValues (RequestCall.apply ctrl (.setHeader key (some value))) ↔
      RequestCall.KeepsCount ctrl (.setHeader key (some value)) := by
  rw [countsValues_iff]
  unfold RequestCall.KeepsCount
  dsimp only
  rcases exists_last (beginsWith key) ctrl.outHeaders with
    hnone | ⟨before, old, after, hlist, hold, hafter⟩
  · have happly : RequestCall.apply ctrl (.setHeader key (some value)) = { ctrl with
        outHeaders := ctrl.outHeaders ++ [entryText key value]
        outHeaderCount := toUInt16 (ctrl.outHeaderCount + 1) } := by
      rw [RequestCall.apply, setHeader_append hnone]
      rfl
    rw [happly] at hfew ⊢
    rw [lastBeginning_none hnone]
    have hle : numValued ctrl.outHeaders ≤ ctrl.outHeaders.length := List.countP_le_length
    show toUInt16 (ctrl.outHeaderCount + 1) = numValued (ctrl.outHeaders ++ _) ↔ _
    have hsmall : toUInt16 (ctrl.outHeaderCount + 1) = ctrl.outHeaderCount + 1 := by
      have hfew : (ctrl.outHeaders ++ [entryText key value]).length < 2 ^ 16 := hfew
      rw [List.length_append, List.length_singleton] at hfew
      exact Nat.mod_eq_of_lt (by omega)
    rw [numValued_concat, hsmall, hcount]
    cases valued (entryText key value) <;> simp
  · have happly : RequestCall.apply ctrl (.setHeader key (some value)) = { ctrl with
        outHeaders := before ++ entryText key value :: after } := by
      rw [RequestCall.apply, setHeader_overwrite hlist hold hafter]
      rfl
    rw [happly]
    show ctrl.outHeaderCount = numValued (before ++ entryText key value :: after) ↔ _
    rw [hcount, hlist, lastBeginning_last hold hafter]
    simp only [numValued, List.countP_append, List.countP_cons]
    cases valued old <;> cases valued (entryText key value) <;> simp

/-- Where the first header stays, not every one is removed. -/
theorem countP_beginsWith_lt {list : List (List UInt8)} (hsize : list.length < 2 ^ 16)
    (hnot : ∀ data, list.head? = some data → beginsWith key data = false) :
    list.countP (beginsWith key) < 2 ^ 16 - 1 := by
  cases list with
  | nil =>
    rw [List.countP_nil]
    decide
  | cons first rest =>
    have hrest : rest.countP (beginsWith key) ≤ rest.length := List.countP_le_length
    rw [List.countP_cons_of_neg (by simp [hnot first rfl])]
    rw [List.length_cons] at hsize
    omega

theorem removed_valued_iff (list : List (List UInt8)) :
    (∀ data ∈ list, beginsWith key data = true → valued data = true) ↔
      numValued (list.filter (beginsWith key)) = (list.filter (beginsWith key)).length := by
  rw [numValued, List.countP_eq_length]
  simp only [List.mem_filter, and_imp]

theorem count_setHeader_null (hcount : ctrl.outHeaderCount = numValued ctrl.outHeaders)
    (hsize : ctrl.outHeaders.length < 2 ^ 16)
    (hfew : (RequestCall.apply ctrl (.setHeader key none)).outHeaders.length < 2 ^ 16) :
    CountsValues (RequestCall.apply ctrl (.setHeader key none)) ↔
      RequestCall.KeepsCount ctrl (.setHeader key none) := by
  rw [countsValues_iff]
  unfold RequestCall.KeepsCount
  dsimp only
  by_cases hfirst : ctrl.outHeaders.head?.any (beginsWith key) = true
  · cases hlist : ctrl.outHeaders with
    | nil =>
      rw [hlist] at hfirst
      cases hfirst
    | cons first rest =>
      have hmatch : beginsWith key first = true := by
        rw [hlist] at hfirst
        exact hfirst
      rw [hlist] at hfirst hcount
      rw [if_pos hfirst, RequestCall.apply, setHeader_dropAll hlist hmatch, ← hcount]
      rfl
  rw [if_neg hfirst]
  have hnot : ∀ data, ctrl.outHeaders.head? = some data → beginsWith key data = false := by
    intro data hhead
    rw [hhead] at hfirst
    exact Bool.not_eq_true _ ▸ hfirst
  have hle : numValued ctrl.outHeaders ≤ ctrl.outHeaders.length := List.countP_le_length
  have happly : RequestCall.apply ctrl (.setHeader key none) = { ctrl with
      outHeaders := ctrl.outHeaders.filter (fun data => !beginsWith key data) ++ [stubText key]
      outHeaderCount :=
        toUInt16 (ctrl.outHeaderCount + 65535 * ctrl.outHeaders.countP (beginsWith key)) } := by
    rw [RequestCall.apply, setHeader_remove hnot (by omega)]
    rfl
  rw [happly] at hfew ⊢
  have hfew : (ctrl.outHeaders.filter (fun data => !beginsWith key data) ++
    [stubText key]).length < 2 ^ 16 := hfew
  show toUInt16 _ = numValued (_ ++ _) ↔ _
  -- the headers that stay, the headers that are removed, and the stub
  have hvalues : numValued ctrl.outHeaders =
      numValued (ctrl.outHeaders.filter (beginsWith key)) +
        numValued (ctrl.outHeaders.filter fun data => !beginsWith key data) :=
    List.countP_eq_countP_filter_add _ _ _
  have hlength : ctrl.outHeaders.countP (beginsWith key) =
      (ctrl.outHeaders.filter (beginsWith key)).length := List.countP_eq_length_filter
  have hremoved := countP_beginsWith_lt hsize hnot
  have hkept : numValued (ctrl.outHeaders.filter fun data => !beginsWith key data) ≤
      (ctrl.outHeaders.filter fun data => !beginsWith key data).length := List.countP_le_length
  have hsome : numValued (ctrl.outHeaders.filter (beginsWith key)) ≤
      (ctrl.outHeaders.filter (beginsWith key)).length := List.countP_le_length
  rw [List.length_append, List.length_singleton] at hfew
  rw [removed_valued_iff, hcount, numValued_concat, toUInt16]
  cases valued (stubText key) with
  | true =>
    simp only [if_true, Bool.true_eq_false, and_false, iff_false]
    omega
  | false =>
    simp only [Bool.false_eq_true, if_false, and_true]
    omega

theorem count_addHeader (hcount : ctrl.outHeaderCount = numValued ctrl.outHeaders)
    (hfew : (RequestCall.apply ctrl (.addHeader key value)).outHeaders.length < 2 ^ 16) :
    CountsValues (RequestCall.apply ctrl (.addHeader key value)) ↔
      RequestCall.KeepsCount ctrl (.addHeader key value) := by
  have happly : RequestCall.apply ctrl (.addHeader key value) = { ctrl with
      outHeaders := ctrl.outHeaders ++ [cString (entryText key value)]
      outHeaderCount := toUInt16 (ctrl.outHeaderCount + 1) } := by
    rw [RequestCall.apply, addHeader, if_neg (by simp [allocOk])]
    rfl
  rw [happly] at hfew ⊢
  have hfew : (ctrl.outHeaders ++ [cString (entryText key value)]).length < 2 ^ 16 := hfew
  rw [List.length_append, List.length_singleton] at hfew
  have hle : numValued ctrl.outHeaders ≤ ctrl.outHeaders.length := List.countP_le_length
  have hsmall : toUInt16 (ctrl.outHeaderCount + 1) = ctrl.outHeaderCount + 1 :=
    Nat.mod_eq_of_lt (by omega)
  rw [countsValues_iff]
  show toUInt16 (ctrl.outHeaderCount + 1) = numValued (ctrl.outHeaders ++ _) ↔
    valued (entryText key value) = true
  rw [numValued_concat, valued_cString, hsmall, hcount]
  cases valued (entryText key value) <;> simp

end Step

/-- **A call keeps the count right exactly when it changes both sides alike.** -/
theorem countsValues_apply_iff {ctrl : CurlData} {call : RequestCall} (h : CountsValues ctrl)
    (hsize : ctrl.outHeaders.length < 2 ^ 16)
    (hfew : (call.apply ctrl).outHeaders.length < 2 ^ 16) :
    CountsValues (call.apply ctrl) ↔ call.KeepsCount ctrl := by
  cases call with
  | setHeader key value =>
    cases value with
    | none => exact count_setHeader_null h.count hsize hfew
    | some value => exact count_setHeader_value h.count hfew
  | addHeader key value => exact count_addHeader h.count hfew
  | clearHeaders => exact iff_of_true ⟨rfl, fun _ => nofun⟩ trivial

/-- The handle after the calls. -/
def requestCalls (ctrl : CurlData) (calls : List RequestCall) : CurlData :=
  Runs.run RequestCall.apply ctrl calls

theorem outHeaderCount_requestCalls_lt (calls : List RequestCall) :
    (requestCalls nativeCreate calls).outHeaderCount < 2 ^ 16 :=
  Runs.run_invariant (I := fun ctrl => ctrl.outHeaderCount < 2 ^ 16)
    (fun ctrl call => call.apply ctrl) (fun _ call h (_ : True) => outHeaderCount_apply_lt h call)
    calls nativeCreate (by decide) fun _ _ => trivial

/-- After each of the calls, made on a fresh handle, the count is right. -/
def CountsThroughout (calls : List RequestCall) : Prop :=
  ∀ before, before <+: calls → CountsValues (requestCalls nativeCreate before)

/-- **The count of the request headers**, after each call of a run on a fresh handle with
lists of fewer than 65536 entries: it is the number of headers that carry a value exactly
when every call keeps it so. -/
theorem counts_values_iff (calls : List RequestCall)
    (hfew : ∀ before, before <+: calls →
      (requestCalls nativeCreate before).outHeaders.length < 2 ^ 16) :
    CountsThroughout calls ↔ ∀ before call, before ++ [call] <+: calls →
      call.KeepsCount (requestCalls nativeCreate before) := by
  refine Runs.holds_throughout_iff (I := fun ctrl => CountsValues ctrl ∧ ctrl.outHeaders.length < 2 ^ 16)
    (fun ctrl call => (call.apply ctrl).outHeaders.length < 2 ^ 16) (fun ctrl call => call.apply ctrl)
    (fun _ h => h.1) ?_ ?_ calls nativeCreate ⟨⟨rfl, fun _ => nofun⟩, by decide⟩ ?_
  · intro ctrl call h hok hkeeps
    exact ⟨(countsValues_apply_iff h.1 h.2 hok).mpr hkeeps, hok⟩
  · intro ctrl call h hok hkeeps hcounts
    exact hkeeps ((countsValues_apply_iff h.1 h.2 hok).mp hcounts)
  · intro before call hpre
    have hsize := hfew (before ++ [call]) hpre
    unfold requestCalls at hsize
    rw [Runs.run_append] at hsize
    exact hsize

/-- A header is set, two are added, and one of these is removed again. -/
def editedHeaders : List RequestCall :=
  [.setHeader [97] (some [49]), .addHeader [98] [50], .addHeader [99] [], .setHeader [98] none]

theorem counts_values_editedHeaders : CountsThroughout editedHeaders := by
  refine (counts_values_iff editedHeaders ?_).mpr ?_
  · intro before hpre
    rw [List.prefix_iff_eq_take.mp hpre]
    have hlen : before.length ≤ 4 := hpre.length_le
    generalize before.length = n at hlen
    revert n
    decide
  · refine Runs.forall_concat_prefix ?_
    decide

/-- `Expect` is suppressed, and set after all: it takes the place of the stub, and is not
counted. -/
def readdedExpect : List RequestCall :=
  [.setHeader [69, 120, 112, 101, 99, 116] none, .setHeader [69, 120, 112, 101, 99, 116] (some [49])]

theorem not_counts_values_readdedExpect : ¬ CountsThroughout readdedExpect := by
  intro h
  have hcount := (h readdedExpect (List.prefix_refl _)).count
  revert hcount
  decide

end CurlData
end Chttpc
