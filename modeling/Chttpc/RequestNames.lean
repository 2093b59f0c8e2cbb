import Chttpc.ReadYourWrites

/-!
# Whose header `setHeader` changes

`setHeader` compares its key with the beginning of each text and does not look for the
separator behind it, so a header whose name only begins with the key passes for one of its
own; `outHeader`, which reads the same list, does look.  And where a header without a value
is to be taken out, the head of the list takes the rest of the list with it.

The name of a header is what stands in front of its separator (`nameOf`).  Of the headers
in the list, `setHeader` is to touch those only whose name is the key, in any case.
-/

namespace Chttpc
namespace CurlData

/-- What stands in front of the separator. -/
def nameOf (data : List UInt8) : List UInt8 := data.takeWhile fun c => c != 58 && c != 59

/-- The name of the header is the key, in any case. -/
def named (key : JString) (data : List UInt8) : Bool :=
  (nameOf data).map lowerCase == (narrow key).map lowerCase

/-- The last header with the name gives way to the new text, or there is none and the new
text comes last.  The others stay as and where they are. -/
def SetsOwn (key value : JString) (before after : List (List UInt8)) : Prop :=
  (∃ front old back, before = front ++ old :: back ∧ named key old = true ∧
      (∀ data ∈ back, named key data = false) ∧
      after = front ++ entryText key value :: back) ∨
    (∀ data ∈ before, named key data = false) ∧ after = before ++ [entryText key value]

/-- The headers with other names stay, in their order, and a stub follows them. -/
def RemovesOwn (key : JString) (before after : List (List UInt8)) : Prop :=
  after = before.filter (fun data => !named key data) ++ [narrow key ++ [58]]

instance (key : JString) (before after : List (List UInt8)) : Decidable (RemovesOwn key before after) :=
  inferInstanceAs (Decidable (_ = _))

/-! ## Names -/

section Names
variable {key value : JString} {data : List UInt8}

/-- The case of a separator does not change, and nothing else becomes one. -/
theorem lowerCase_eq_iff {c s : UInt8} (hs : s = 58 ∨ s = 59) : lowerCase c = s ↔ c = s := by
  unfold lowerCase
  split
  · rename_i hupper
    have hle : c.toNat ≤ 90 := hupper.2
    have hge : 65 ≤ c.toNat := hupper.1
    have hsum : (c + 32).toNat = c.toNat + 32 := by
      rw [UInt8.toNat_add]
      change (c.toNat + 32) % 256 = _
      omega
    have hsmall : s.toNat < 60 := by
      rcases hs with rfl | rfl
      · decide
      · decide
    refine iff_of_false (fun h => ?_) fun h => ?_
    · have hnat := congrArg UInt8.toNat h
      omega
    · have hnat := congrArg UInt8.toNat h
      omega
  · rfl

theorem not_separator_of_mem_nameOf {c : UInt8} (h : c ∈ nameOf data) : c ≠ 58 ∧ c ≠ 59 := by
  simpa using List.mem_takeWhile_imp h

/-- A key that is a name contains no separator. -/
theorem not_separator_of_named (h : named key data = true) :
    ∀ c ∈ narrow key, c ≠ 58 ∧ c ≠ 59 := by
  intro c hc
  have hmem : lowerCase c ∈ (nameOf data).map lowerCase := by
    rw [beq_iff_eq.mp h]
    exact List.mem_map_of_mem hc
  obtain ⟨d, hd, heq⟩ := List.mem_map.mp hmem
  have hnot := not_separator_of_mem_nameOf hd
  refine ⟨fun he => hnot.1 ?_, fun he => hnot.2 ?_⟩
  · rw [he, (lowerCase_eq_iff (.inl rfl)).mpr rfl] at heq
    exact (lowerCase_eq_iff (.inl rfl)).mp heq
  · rw [he, (lowerCase_eq_iff (.inr rfl)).mpr rfl] at heq
    exact (lowerCase_eq_iff (.inr rfl)).mp heq

/-- The text of `setHeader` has the key for its name. -/
theorem named_entryText (hkey : ∀ c ∈ narrow key, c ≠ 58 ∧ c ≠ 59) :
    named key (entryText key value) = true := by
  have hname : nameOf (entryText key value) = narrow key := by
    unfold nameOf entryText
    rw [List.takeWhile_append_of_pos fun c hc => by simpa using hkey c hc]
    have hnil : ∀ rest, (((if value.length = 0 then 59 else 58) :: rest : List UInt8).takeWhile
        fun c => c != 58 && c != 59) = [] := by
      intro rest
      split
      · rfl
      · rfl
    rw [hnil, List.append_nil]
  rw [named, hname]
  exact beq_self_eq_true _

/-- A header with the name begins with the key. -/
theorem beginsWith_of_named (h : named key data = true) : beginsWith key data = true := by
  have hcase := beq_iff_eq.mp h
  have hlength : (narrow key).length = (nameOf data).length := by
    simpa using (congrArg List.length hcase).symm
  have hsplit : nameOf data ++ data.dropWhile (fun c => c != 58 && c != 59) = data :=
    List.takeWhile_append_dropWhile
  have hself := strncasecmpZero_append (nameOf data) (data.dropWhile fun c => c != 58 && c != 59)
  rw [hsplit] at hself
  rw [beginsWith, strncasecmpZero_congr hcase.symm, hlength]
  exact hself

theorem not_named_of_not_beginsWith (h : beginsWith key data = false) : named key data = false := by
  refine Bool.eq_false_iff.mpr fun hnamed => ?_
  rw [beginsWith_of_named hnamed] at h
  cases h

end Names

/-! ## With a value -/

section Set
variable {key value : JString} {outHeaders front back : List (List UInt8)} {old : List UInt8}

/-- An overwritten header is the one to be overwritten exactly when it has the name. -/
theorem setsOwn_overwrite_iff (hback : ∀ data ∈ back, beginsWith key data = false) :
    SetsOwn key value (front ++ old :: back) (front ++ entryText key value :: back) ↔
      named key old = true := by
  constructor
  · rintro (⟨front', old', back', hlist, hold', -, hafter⟩ | ⟨-, hafter⟩)
    · by_contra hold
      -- the texts where the code writes, in the list before and in the two lists after
      have hbefore : (front' ++ old' :: back')[front.length]? = some old := by
        rw [← hlist]
        simp
      have hwritten : (front' ++ entryText key value :: back')[front.length]? =
          some (entryText key value) := by
        rw [← hafter]
        simp
      have hne : front.length ≠ front'.length := by
        intro hlength
        rw [hlength] at hbefore
        have hsame : old' = old := by simpa using hbefore
        exact hold (hsame ▸ hold')
      have hsame : (front' ++ entryText key value :: back')[front.length]? =
          (front' ++ old' :: back')[front.length]? := by
        rcases Nat.lt_or_gt_of_ne hne with hlt | hlt
        · rw [List.getElem?_append_left hlt, List.getElem?_append_left hlt]
        · obtain ⟨n, hn⟩ : ∃ n, front.length - front'.length = n + 1 :=
            ⟨front.length - front'.length - 1, by omega⟩
          rw [List.getElem?_append_right hlt.le, List.getElem?_append_right hlt.le, hn,
            List.getElem?_cons_succ, List.getElem?_cons_succ]
      rw [hwritten, hbefore] at hsame
      have htext : named key (entryText key value) = true :=
        named_entryText (not_separator_of_named hold')
      rw [Option.some.inj hsame] at htext
      exact hold htext
    · have hlength := congrArg List.length hafter
      simp at hlength
  · intro hold
    exact .inl ⟨front, old, back, rfl, hold, fun data hdata =>
      not_named_of_not_beginsWith (hback data hdata), rfl⟩

theorem eq_allocOk {alloc : HeaderAlloc} (hbuffer : alloc.localBuffer = true)
    (hentry : alloc.entry = true) : alloc = allocOk := by
  cases alloc
  cases hbuffer
  cases hentry
  rfl

/-- Without memory for a node, nothing is appended, and the call does not come back. -/
theorem setHeader_append_null {ctrl : CurlData}
    (h : ∀ data ∈ ctrl.outHeaders, beginsWith key data = false) :
    ctrl.setHeader ⟨true, false⟩ key (some value) = none := by
  unfold setHeader
  rw [if_neg (by decide), Option.isSome_some, scanHeaders_none h]
  rfl

/-- Overwriting a header needs no node. -/
theorem setHeader_overwrite_of {alloc : HeaderAlloc} {ctrl : CurlData}
    (hbuffer : alloc.localBuffer = true) (hlist : ctrl.outHeaders = front ++ old :: back)
    (hold : beginsWith key old = true) (hback : ∀ data ∈ back, beginsWith key data = false) :
    ctrl.setHeader alloc key (some value) = some { ctrl with
      outHeaders := front ++ entryText key value :: back } := by
  rw [← setHeader_overwrite hlist hold hback]
  unfold setHeader
  rw [if_neg (by rw [hbuffer]; decide), if_neg (by decide), Option.isSome_some, hlist,
    scanHeaders_last hold hback]

/-- **`setHeader` with a value touches only its own header** exactly when the last header
that begins with the key has the key for its name.  A new header needs memory for a node. -/
theorem sets_own_header_iff {alloc : HeaderAlloc} (hbuffer : alloc.localBuffer = true)
    (ctrl : CurlData) (key value : JString) :
    (∃ ctrl', ctrl.setHeader alloc key (some value) = some ctrl' ∧
        SetsOwn key value ctrl.outHeaders ctrl'.outHeaders) ↔
      (∀ old, lastBeginning key ctrl.outHeaders = some old → named key old = true) ∧
        (lastBeginning key ctrl.outHeaders = none → alloc.entry = true) := by
  rcases exists_last (beginsWith key) ctrl.outHeaders with
    hnone | ⟨front, old, back, hlist, hold, hback⟩
  · rw [lastBeginning_none hnone]
    cases hentry : alloc.entry with
    | false =>
      have halloc : alloc = ⟨true, false⟩ := by rw [← hbuffer, ← hentry]
      rw [halloc, setHeader_append_null hnone]
      refine iff_of_false ?_ fun h => nomatch h.2 rfl
      rintro ⟨_, hset, -⟩
      cases hset
    | true =>
      rw [eq_allocOk hbuffer hentry, setHeader_append hnone]
      refine iff_of_true ⟨_, rfl, .inr ⟨fun data hdata => ?_, rfl⟩⟩ ⟨?_, fun _ => rfl⟩
      · exact not_named_of_not_beginsWith (hnone data hdata)
      · rintro old hold
        cases hold
  · rw [setHeader_overwrite_of hbuffer hlist hold hback, hlist,
      lastBeginning_last hold hback]
    constructor
    · rintro ⟨ctrl', hset, hown⟩
      rw [← Option.some.inj hset] at hown
      have hnamed := (setsOwn_overwrite_iff hback).mp hown
      refine ⟨fun old' hold' => ?_, nofun⟩
      rw [← Option.some.inj hold']
      exact hnamed
    · rintro ⟨hnamed, -⟩
      exact ⟨_, rfl, (setsOwn_overwrite_iff hback).mpr (hnamed old rfl)⟩

end Set

/-- The stub of a header that was removed gives way when it is set again. -/
theorem sets_own_header_stub :
    ∃ ctrl', (requestCalls nativeCreate [.setHeader [97] none]).setHeader allocOk [65]
        (some [49]) = some ctrl' ∧
      SetsOwn [65] [49] (requestCalls nativeCreate [.setHeader [97] none]).outHeaders
        ctrl'.outHeaders :=
  (sets_own_header_iff rfl (requestCalls nativeCreate [.setHeader [97] none]) [65] [49]).mpr
    ⟨by decide, fun _ => rfl⟩

/-- `Accept` is set behind `Accept-Encoding`, and takes its place. -/
theorem not_sets_own_header :
    ¬ ∀ (calls : List RequestCall) (key value : JString),
      ∃ ctrl', (requestCalls nativeCreate calls).setHeader allocOk key (some value) = some ctrl' ∧
        SetsOwn key value (requestCalls nativeCreate calls).outHeaders ctrl'.outHeaders := by
  intro h
  let accept : JString := (ascii "Accept").map (·.toUInt16)
  let encoding : JString := (ascii "Accept-Encoding").map (·.toUInt16)
  obtain ⟨ctrl', hset, hown⟩ := h [.addHeader encoding [120]] accept [121]
  have hlist : ctrl'.outHeaders = [ascii "Accept:y"] := by
    rw [← Option.some.inj hset]
    decide
  have hbefore : (requestCalls nativeCreate [.addHeader encoding [120]]).outHeaders =
      [ascii "Accept-Encoding:x"] := by decide
  rw [hlist, hbefore] at hown
  rcases hown with ⟨front, old, back, hsplit, hnamed, -⟩ | ⟨-, hafter⟩
  · have hmem : old ∈ [ascii "Accept-Encoding:x"] := by rw [hsplit]; simp
    rw [List.mem_singleton.mp hmem] at hnamed
    revert hnamed
    decide
  · cases hafter

/-! ## Without a value -/

section Remove
variable {key : JString} {outHeaders : List (List UInt8)}

/-- The stub, unless a NUL cuts the key. -/
theorem stubText_eq_iff : stubText key = narrow key ++ [58] ↔ 0 ∉ narrow key := by
  rw [stubText, cString_eq_self_iff]
  simp

/-- The headers that begin with the key are those with the name exactly when taking out the
ones is taking out the others. -/
theorem filter_beginsWith_iff :
    outHeaders.filter (fun data => !beginsWith key data) =
        outHeaders.filter (fun data => !named key data) ↔
      ∀ data ∈ outHeaders, beginsWith key data = true → named key data = true := by
  constructor
  · intro h data hdata hbegins
    by_contra hnamed
    have hmem : data ∈ outHeaders.filter fun data => !named key data :=
      List.mem_filter.mpr ⟨hdata, by simpa using hnamed⟩
    rw [← h, List.mem_filter, hbegins] at hmem
    cases hmem.2
  · intro h
    refine List.filter_congr fun data hdata => ?_
    cases hbegins : beginsWith key data with
    | true => rw [h data hdata hbegins]
    | false => rw [not_named_of_not_beginsWith hbegins]

/-- The list without the headers, and the stub behind it. -/
theorem setHeader_null_eq {alloc : HeaderAlloc} (hbuffer : alloc.localBuffer = true)
    (ctrl : CurlData) (key : JString) :
    ∃ ctrl', ctrl.setHeader alloc key none = some ctrl' ∧ ctrl'.outHeaders =
      if alloc.entry then
        (if ctrl.outHeaders.head?.any (beginsWith key) then []
          else ctrl.outHeaders.filter fun data => !beginsWith key data) ++ [stubText key]
      else [] := by
  have hcall : ctrl.setHeader alloc key none = some (CurlData.slistAppend alloc (narrow key ++ [58])
      { ctrl with
        outHeaders := (scanHeaders (narrow key) false ⟨[], none, ctrl.outHeaderCount⟩
          ctrl.outHeaders).kept
        outHeaderCount := (scanHeaders (narrow key) false ⟨[], none, ctrl.outHeaderCount⟩
          ctrl.outHeaders).outHeaderCount }) := by
    unfold setHeader
    rw [if_neg (by rw [hbuffer]; decide)]
    rfl
  have hkept : (scanHeaders (narrow key) false ⟨[], none, ctrl.outHeaderCount⟩
      ctrl.outHeaders).kept =
        if ctrl.outHeaders.head?.any (beginsWith key) then []
        else ctrl.outHeaders.filter fun data => !beginsWith key data := by
    cases ctrl.outHeaders with
    | nil => rfl
    | cons first rest =>
      rw [scanHeaders]
      by_cases hfirst : strncasecmpZero (narrow key) first (narrow key).length = true
      · have hany : (first :: rest).head?.any (beginsWith key) = true := hfirst
        rw [if_pos hfirst, if_neg (by decide), if_pos rfl, if_pos hany]
      · have hany : ¬ (first :: rest).head?.any (beginsWith key) = true := hfirst
        have hnot : beginsWith key first = false := Bool.not_eq_true _ ▸ hfirst
        obtain ⟨count, hscan, -⟩ : ∃ count, scanHeaders (narrow key) false
            ⟨[first], none, ctrl.outHeaderCount⟩ rest = ⟨[first] ++ rest.filter fun data =>
              !strncasecmpZero (narrow key) data (narrow key).length, none, count⟩ ∧ _ :=
          scanHeaders_remove ⟨[first], none, ctrl.outHeaderCount⟩ (List.cons_ne_nil first [])
        rw [if_neg hfirst, List.nil_append, hscan, if_neg hany,
          List.filter_cons_of_pos (by simp [hnot])]
        rfl
  refine ⟨_, hcall, ?_⟩
  rw [slistAppend, hkept]
  rfl

/-- **`setHeader` without a value takes out its own headers only** exactly when every header
that begins with the key has the key for its name, and no other header is in the list if one
of them is its head.  The stub needs memory, and a key without a NUL. -/
theorem removes_own_header_iff {alloc : HeaderAlloc} (hbuffer : alloc.localBuffer = true)
    (ctrl : CurlData) (key : JString) :
    (∃ ctrl', ctrl.setHeader alloc key none = some ctrl' ∧
        RemovesOwn key ctrl.outHeaders ctrl'.outHeaders) ↔
      (∀ data ∈ ctrl.outHeaders, beginsWith key data = true → named key data = true) ∧
        ((∃ first, ctrl.outHeaders.head? = some first ∧ named key first = true) →
          ∀ data ∈ ctrl.outHeaders, named key data = true) ∧
        alloc.entry = true ∧ 0 ∉ narrow key := by
  obtain ⟨ctrl', hcall, hlist⟩ := setHeader_null_eq hbuffer ctrl key
  have hown : (∃ ctrl', ctrl.setHeader alloc key none = some ctrl' ∧
      RemovesOwn key ctrl.outHeaders ctrl'.outHeaders) ↔
        RemovesOwn key ctrl.outHeaders ctrl'.outHeaders := by
    rw [hcall]
    exact ⟨fun ⟨_, heq, h⟩ => Option.some.inj heq ▸ h, fun h => ⟨_, rfl, h⟩⟩
  rw [hown, RemovesOwn, hlist]
  cases hentry : alloc.entry with
  | false => exact iff_of_false (by simp) (by simp)
  | true =>
    rw [if_pos rfl, List.append_singleton_inj, stubText_eq_iff]
    by_cases hhead : ctrl.outHeaders.head?.any (beginsWith key) = true
    · rw [if_pos hhead, eq_comm, List.filter_eq_nil_iff]
      obtain ⟨first, hfirst, hbegins⟩ := (Option.any_eq_true _ _).mp hhead
      have hmem : first ∈ ctrl.outHeaders := List.mem_of_head? hfirst
      constructor
      · rintro ⟨hall, hnul⟩
        have hnamed : ∀ data ∈ ctrl.outHeaders, named key data = true :=
          fun data hdata => by simpa using hall data hdata
        exact ⟨fun data hdata _ => hnamed data hdata, fun _ => hnamed, rfl, hnul⟩
      · rintro ⟨hown, hall, -, hnul⟩
        refine ⟨fun data hdata => ?_, hnul⟩
        rw [hall ⟨first, hfirst, hown first hmem hbegins⟩ data hdata]
        decide
    · rw [if_neg hhead, filter_beginsWith_iff]
      have hnone : ¬ ∃ first, ctrl.outHeaders.head? = some first ∧ named key first = true := by
        rintro ⟨first, hfirst, hnamed⟩
        rw [hfirst] at hhead
        exact hhead (beginsWith_of_named hnamed)
      exact ⟨fun h => ⟨h.1, fun hsome => absurd hsome hnone, rfl, h.2⟩, fun h => ⟨h.1, h.2.2.2⟩⟩

end Remove

/-- Two headers of one name are removed from behind another one. -/
theorem removes_own_header_twice :
    ∃ ctrl', (requestCalls nativeCreate [.addHeader [98] [49], .addHeader [97] [50],
        .addHeader [65] [51]]).setHeader allocOk [97] none = some ctrl' ∧
      RemovesOwn [97] (requestCalls nativeCreate [.addHeader [98] [49], .addHeader [97] [50],
        .addHeader [65] [51]]).outHeaders ctrl'.outHeaders :=
  (removes_own_header_iff rfl (requestCalls nativeCreate [.addHeader [98] [49],
    .addHeader [97] [50], .addHeader [65] [51]]) [97]).mpr (by
      refine ⟨by decide, ?_, rfl, by decide⟩
      rintro ⟨first, hfirst, hnamed⟩
      cases hfirst
      revert hnamed
      decide)

/-- The head of the list is removed, and the header behind it is lost. -/
theorem not_removes_own_header :
    ¬ ∀ (calls : List RequestCall) (key : JString),
      ∃ ctrl', (requestCalls nativeCreate calls).setHeader allocOk key none = some ctrl' ∧
        RemovesOwn key (requestCalls nativeCreate calls).outHeaders ctrl'.outHeaders := by
  intro h
  obtain ⟨ctrl', hremove, hown⟩ := h [.addHeader [97] [49], .addHeader [98] [50]] [97]
  have hlist : ctrl'.outHeaders = [ascii "a:"] := by
    rw [← Option.some.inj hremove]
    decide
  rw [hlist] at hown
  revert hown
  decide

end CurlData
end Chttpc
