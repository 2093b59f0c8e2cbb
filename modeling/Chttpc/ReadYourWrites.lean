import Chttpc.RequestReadback
import Chttpc.HeaderLookup

/-!
# `getRequestHeader` after `setHeaderField`

The writer changes the last header that begins with the key, the reader returns the
value of the first one that is the key, up to a separator.  So a value that has been set
is read back if no header in front of the one written gets in the way, and if anything
is counted at all: with a count of zero the reader does not look.  A key that has been
removed leaves a stub, which reads as an empty value; only a count of zero hides it.
-/

namespace Chttpc
namespace CurlData

/-- `NewStringUTF` makes ASCII texts the strings of the same characters. -/
def DecodesAscii (platform : Platform) : Prop :=
  ∀ text : List UInt8, (∀ c ∈ text, c ≠ 0 ∧ c < 128) →
    platform.newStringUTF text = text.map (·.toUInt16)

/-- The keys differ in letter case only. -/
def SameKey (key key' : JString) : Prop := key'.map lowerUnit = key.map lowerUnit

/-- `CurlHttp.getRequestHeader`, with memory for what it allocates; `none` if it does not
return. -/
def getRequestHeader (platform : Platform) (key : JString) (ctrl : CurlData) :
    Option (Option JString) :=
  (ctrl.outHeader platform allocOk true key).map Prod.snd

/-- The value that stands in a text behind a key of this length. -/
def valueBehind (platform : Platform) (key : JString) (data : List UInt8) : JString :=
  platform.newStringUTF (cString (data.drop (key.length + 1)))

/-! ## The comparison -/

section Compare
variable {a a' : List UInt8}

theorem lowerCase_eq_zero_iff {c : UInt8} : lowerCase c = 0 ↔ c = 0 := by
  unfold lowerCase
  split
  · rename_i hupper
    refine iff_of_false (fun h => ?_) fun h => ?_
    · have hnat := congrArg UInt8.toNat h
      have hle : c.toNat ≤ 90 := hupper.2
      have hge : 65 ≤ c.toNat := hupper.1
      rw [UInt8.toNat_add] at hnat
      change (c.toNat + 32) % 256 = 0 at hnat
      omega
    · rw [h] at hupper
      exact absurd hupper (by decide)
  · rfl

theorem strncasecmpZero_congr (h : a'.map lowerCase = a.map lowerCase) (b : List UInt8) (n : Nat) :
    strncasecmpZero a' b n = strncasecmpZero a b n := by
  induction n generalizing a a' b with
  | zero => rfl
  | succ n ih =>
    have hhead : lowerCase (a'.headD 0) = lowerCase (a.headD 0) := by
      rcases a with _ | ⟨c, a⟩ <;> rcases a' with _ | ⟨c', a'⟩
      · rfl
      · cases h
      · cases h
      · exact (List.cons.inj h).1
    have htail : a'.tail.map lowerCase = a.tail.map lowerCase := by
      rw [List.map_tail, List.map_tail, h]
    have hzero : (a'.headD 0 == 0) = (a.headD 0 == 0) := by
      rw [Bool.eq_iff_iff, beq_iff_eq, beq_iff_eq, ← lowerCase_eq_zero_iff, hhead,
        lowerCase_eq_zero_iff]
    rw [strncasecmpZero, strncasecmpZero, hhead, hzero, ih htail]

/-- A text begins with itself. -/
theorem strncasecmpZero_append (a b : List UInt8) : strncasecmpZero a (a ++ b) a.length = true := by
  induction a with
  | nil => rfl
  | cons c a ih =>
    show (lowerCase c == lowerCase c && (c == 0 || strncasecmpZero a (a ++ b) a.length)) = true
    rw [ih, beq_self_eq_true, Bool.or_true]
    rfl

/-- Up to its NUL, too. -/
theorem strncasecmpZero_cString (a b : List UInt8) :
    strncasecmpZero a (cString (a ++ b)) a.length = true := by
  induction a with
  | nil => rfl
  | cons c a ih =>
    by_cases hc : c = 0
    · rw [hc]
      rfl
    · rw [List.cons_append, cString_cons hc]
      show (lowerCase c == lowerCase c &&
        (c == 0 || strncasecmpZero a (cString (a ++ b)) a.length)) = true
      rw [ih, beq_self_eq_true, Bool.or_true]
      rfl

end Compare

/-! ## The search -/

section Find
variable {key key' : JString} {outHeaders : List (List UInt8)}

theorem toUInt8_lowerUnit {c : UInt16} (h : c < 128) :
    (lowerUnit c).toUInt8 = lowerCase c.toUInt8 := by
  have hall : ∀ n < 128, (lowerUnit (UInt16.ofNat n)).toUInt8 =
      lowerCase (UInt16.ofNat n).toUInt8 := by decide
  have hc := hall c.toNat h
  rwa [UInt16.ofNat_toNat] at hc

theorem lt_of_lowerUnit_lt {c : UInt16} (h : lowerUnit c < 128) : c < 128 := by
  unfold lowerUnit at h
  split at h
  · rename_i hupper
    exact UInt16.lt_of_le_of_lt hupper.2 (by decide)
  · exact h

theorem lowerUnit_lt {c : UInt16} (h : c < 128) : lowerUnit c < 128 := by
  have hall : ∀ n < 128, lowerUnit (UInt16.ofNat n) < 128 := by decide
  have hc := hall c.toNat h
  rwa [UInt16.ofNat_toNat] at hc

theorem map_lowerCase_narrow {key : JString} (h : ∀ c ∈ key, c < 128) :
    (narrow key).map lowerCase = (key.map lowerUnit).map (·.toUInt8) := by
  rw [narrow, List.map_map, List.map_map]
  exact List.map_congr_left fun c hc => (toUInt8_lowerUnit (h c hc)).symm

theorem narrow_sameKey (hkey : PlainName key) (h : SameKey key key') :
    (narrow key').map lowerCase = (narrow key).map lowerCase := by
  have hascii : ∀ c ∈ key', c < 128 := by
    intro c' hc'
    have hmem : lowerUnit c' ∈ key.map lowerUnit := h ▸ List.mem_map_of_mem hc'
    obtain ⟨c, hc, heq⟩ := List.mem_map.mp hmem
    exact lt_of_lowerUnit_lt (heq ▸ lowerUnit_lt (hkey c hc).1)
  rw [map_lowerCase_narrow hascii, map_lowerCase_narrow fun c hc => (hkey c hc).1, h]

theorem SameKey.length_eq (h : SameKey key key') : key'.length = key.length := by
  simpa using congrArg List.length h

theorem beginsWith_sameKey (hkey : PlainName key) (h : SameKey key key') (data : List UInt8) :
    beginsWith key' data = beginsWith key data := by
  have hlength : (narrow key').length = (narrow key).length := by
    rw [narrow, narrow, List.length_map, List.length_map, h.length_eq]
  rw [beginsWith, beginsWith, hlength, strncasecmpZero_congr (narrow_sameKey hkey h)]

/-- The search passes the headers that do not begin with the key. -/
theorem findOutHeader_none (h : ∀ data ∈ outHeaders, beginsWith key data = false) :
    findOutHeader (narrow key) outHeaders = some none := by
  induction outHeaders with
  | nil => rfl
  | cons data rest ih =>
    have hdata : ¬ beginsWith key data = true := by simp [h data List.mem_cons_self]
    rw [findOutHeader]
    exact (if_neg hdata).trans (ih fun d hd => h d (List.mem_cons_of_mem _ hd))

theorem findOutHeader_append (key : List UInt8) (before after : List (List UInt8)) :
    findOutHeader key (before ++ after) =
      match findOutHeader key before with
      | some none => findOutHeader key after
      | found => found := by
  induction before with
  | nil => rfl
  | cons data rest ih =>
    rw [List.cons_append, findOutHeader, findOutHeader, ih]
    split_ifs <;> rfl

/-- A header that has been set is found. -/
theorem findOutHeader_entryText (hkey : PlainName key) (h : SameKey key key') (value : JString)
    (after : List (List UInt8)) :
    findOutHeader (narrow key') (entryText key value :: after) =
      some (some (entryText key value)) := by
  have hbegins : beginsWith key' (entryText key value) = true := by
    rw [beginsWith_sameKey hkey h]
    exact strncasecmpZero_append _ _
  have hlength : (narrow key').length = (narrow key).length := by
    rw [narrow, narrow, List.length_map, List.length_map, h.length_eq]
  have hsep : (entryText key value).getD (narrow key').length 0 =
      if value.length = 0 then 59 else 58 := by
    rw [hlength, entryText, List.getD_eq_getElem?_getD, List.getElem?_append_right (Nat.le_refl _),
      Nat.sub_self]
    rfl
  rw [findOutHeader]
  refine (if_pos hbegins).trans ?_
  rw [if_neg (by rw [hlength, entryText, List.length_append]; omega), hsep, if_pos]
  split_ifs <;> simp

/-- A stub is found, too, or the separator is read behind it. -/
theorem findOutHeader_stubText (hkey : PlainName key) (h : SameKey key key') :
    findOutHeader (narrow key') [stubText key] ≠ some none := by
  have hbegins : beginsWith key' (stubText key) = true := by
    rw [beginsWith_sameKey hkey h]
    exact strncasecmpZero_cString _ _
  have hlength : (narrow key').length = (narrow key).length := by
    rw [narrow, narrow, List.length_map, List.length_map, h.length_eq]
  rw [findOutHeader]
  intro hfind
  replace hfind := (if_pos hbegins).symm.trans hfind
  rw [hlength] at hfind
  by_cases hnul : 0 ∈ narrow key
  · have hshort : (stubText key).length < (narrow key).length := by
      have hcut : cString (narrow key) <+: narrow key := List.takeWhile_prefix _
      have hne : cString (narrow key) ≠ narrow key := fun he =>
        cString_eq_self_iff.mp he hnul
      rw [stubText, cString_append_of_mem hnul]
      exact lt_of_le_of_ne hcut.length_le fun he => hne (hcut.eq_of_length he)
    rw [if_pos hshort] at hfind
    cases hfind
  · have hstub : stubText key = narrow key ++ [58] := by
      rw [stubText, cString_append hnul]
      rfl
    rw [hstub, if_neg (by simp), if_pos (by simp)] at hfind
    cases hfind

end Find

/-! ## After a write -/

/-- The headers in front of the last one that begins with the key. -/
def inFront (key : JString) (outHeaders : List (List UInt8)) : List (List UInt8) :=
  ((outHeaders.reverse.dropWhile fun data => !beginsWith key data).drop 1).reverse

/-- The list that the call finds lets what it sets be read back.  A value: something is
counted afterwards, and the first header for the key in front of the one that is written,
if there is any, holds the same value.  A key without a value: nothing is counted
afterwards. -/
def LetsRead (platform : Platform) (ctrl : CurlData) (key key' : JString) : Option JString → Prop
  | some value =>
      (match lastBeginning key ctrl.outHeaders with
        | some _ => ctrl.outHeaderCount ≠ 0
        | none => ctrl.outHeaderCount + 1 ≠ 2 ^ 16) ∧
      match findOutHeader (narrow key') (inFront key ctrl.outHeaders) with
        | none => False
        | some none => 0 ∉ value
        | some (some data) => valueBehind platform key' data = value
  | none =>
      if ctrl.outHeaders.head?.any (beginsWith key) then ctrl.outHeaderCount = 0
      else ctrl.outHeaderCount = ctrl.outHeaders.countP (beginsWith key) % 2 ^ 16

section Read
variable {ctrl : CurlData} {platform : Platform} {key key' : JString}

theorem inFront_none {outHeaders : List (List UInt8)}
    (h : ∀ data ∈ outHeaders, beginsWith key data = false) : inFront key outHeaders = [] := by
  have hdrop : (outHeaders.reverse.dropWhile fun data => !beginsWith key data) = [] := by
    rw [List.dropWhile_eq_nil_iff]
    intro data hdata
    rw [h data (List.mem_reverse.mp hdata)]
    rfl
  rw [inFront, hdrop]
  rfl

theorem inFront_last {before after : List (List UInt8)} {old : List UInt8}
    (hold : beginsWith key old = true) (hafter : ∀ data ∈ after, beginsWith key data = false) :
    inFront key (before ++ old :: after) = before := by
  have hdrop : ((before ++ old :: after).reverse.dropWhile fun data => !beginsWith key data) =
      old :: before.reverse := by
    rw [List.reverse_append, List.reverse_cons, List.append_assoc, List.dropWhile_append_of_pos,
      List.singleton_append, List.dropWhile_cons_of_neg (by simp [hold])]
    intro data hdata
    rw [hafter data (List.mem_reverse.mp hdata)]
    rfl
  rw [inFront, hdrop, List.drop_one, List.tail_cons, List.reverse_reverse]

/-- What the reader returns. -/
theorem getRequestHeader_eq (h : ctrl.outHeaders ≠ []) :
    ctrl.getRequestHeader platform key =
      if ctrl.outHeaderCount = 0 then some none
      else (findOutHeader (narrow key) ctrl.outHeaders).map (Option.map (valueBehind platform key)) := by
  unfold getRequestHeader outHeader
  by_cases hzero : ctrl.outHeaderCount = 0
  · rw [if_pos hzero, if_pos hzero]
    rfl
  · rw [if_neg hzero, if_neg hzero, if_neg (by simp [allocOk, h])]
    rcases findOutHeader (narrow key) ctrl.outHeaders with _ | _ | data <;> rfl

/-- A value is read as it was set, up to its first NUL. -/
theorem valueBehind_entryText (hutf : DecodesAscii platform) (h : SameKey key key') {value : JString}
    (hvalue : Ascii value) :
    valueBehind platform key' (entryText key value) = value ↔ 0 ∉ value := by
  have hdrop : (entryText key value).drop (key'.length + 1) = narrow value := by
    have hlength : key'.length = (narrow key).length := by
      rw [h.length_eq, narrow, List.length_map]
    rw [entryText, hlength, ← List.drop_drop, List.drop_left]
    rfl
  have hascii : ∀ c ∈ cString (narrow value), c ≠ 0 ∧ c < 128 := fun c hc =>
    ⟨fun he => nul_notMem_cString _ (he ▸ hc), narrow_ascii hvalue c (List.takeWhile_subset _ hc)⟩
  rw [valueBehind, hdrop, hutf _ hascii]
  constructor
  · intro heq hnul
    have hmem : (0 : UInt8) ∈ narrow value := List.mem_map_of_mem hnul
    have hlength : (cString (narrow value)).length = (narrow value).length := by
      have hlen := congrArg List.length heq
      rw [List.length_map] at hlen
      rw [hlen, narrow, List.length_map]
    have hcut : cString (narrow value) <+: narrow value := List.takeWhile_prefix _
    exact cString_eq_self_iff.mp (hcut.eq_of_length hlength) hmem
  · intro hnul
    have hnot : 0 ∉ narrow value := by
      intro hmem
      obtain ⟨c, hc, hzero⟩ := mem_narrow hmem
      have hnat := toUInt8_ascii (hvalue c hc)
      rw [← hzero] at hnat
      have hc0 : c = 0 := UInt16.toNat_inj.mp hnat.symm
      exact hnul (hc0 ▸ hc)
    rw [cString_eq_self_iff.mpr hnot, narrow, List.map_map]
    refine (List.map_congr_left fun c hc => ?_).trans (List.map_id value)
    exact UInt16.toNat_inj.mp ((UInt8.toNat_toUInt16 _).trans (toUInt8_ascii (hvalue c hc)))

/-- **A value that is set is read back** exactly when the list lets it be read. -/
theorem reads_value_iff (hutf : DecodesAscii platform) (hsmall : ctrl.outHeaderCount < 2 ^ 16)
    (hkey : PlainName key) (h : SameKey key key') {value : JString} (hvalue : Ascii value) :
    (RequestCall.apply ctrl (.setHeader key (some value))).getRequestHeader platform key' =
        some (some value) ↔ LetsRead platform ctrl key key' (some value) := by
  unfold LetsRead
  dsimp only
  rcases exists_last (beginsWith key) ctrl.outHeaders with
    hnone | ⟨before, old, after, hlist, hold, hafter⟩
  · have hnone' : ∀ data ∈ ctrl.outHeaders, beginsWith key' data = false := fun data hdata =>
      (beginsWith_sameKey hkey h data).trans (hnone data hdata)
    rw [RequestCall.apply, setHeader_append hnone, Option.getD_some, getRequestHeader_eq (by simp),
      lastBeginning_none hnone, inFront_none hnone, findOutHeader_append, findOutHeader_none hnone',
      findOutHeader_entryText hkey h]
    dsimp only [findOutHeader]
    by_cases hfull : ctrl.outHeaderCount + 1 = 2 ^ 16
    · have hzero : toUInt16 (ctrl.outHeaderCount + 1) = 0 := by rw [hfull]; rfl
      rw [if_pos hzero]
      exact iff_of_false (by simp) fun hcond => hcond.1 hfull
    · have hnonzero : toUInt16 (ctrl.outHeaderCount + 1) ≠ 0 := by
        rw [toUInt16, Nat.mod_eq_of_lt (by omega)]
        omega
      rw [if_neg hnonzero, and_iff_right hfull, ← valueBehind_entryText hutf h hvalue]
      simp
  · rw [RequestCall.apply, setHeader_overwrite hlist hold hafter, Option.getD_some,
      getRequestHeader_eq (by simp), hlist, lastBeginning_last hold hafter, inFront_last hold hafter,
      findOutHeader_append, findOutHeader_entryText hkey h]
    dsimp only
    by_cases hzero : ctrl.outHeaderCount = 0
    · rw [if_pos hzero]
      exact iff_of_false (by simp) fun hcond => hcond.1 hzero
    rw [if_neg hzero, and_iff_right hzero]
    rcases findOutHeader (narrow key') before with _ | _ | data
    · exact iff_of_false (by simp) id
    · rw [← valueBehind_entryText hutf h hvalue]
      simp
    · simp

/-- **A key that is removed reads as `null`** exactly when nothing is counted afterwards:
the stub is found by the reader, too. -/
theorem reads_null_iff (hsmall : ctrl.outHeaderCount < 2 ^ 16) (hkey : PlainName key)
    (h : SameKey key key') :
    (RequestCall.apply ctrl (.setHeader key none)).getRequestHeader platform key' =
        some none ↔ LetsRead platform ctrl key key' none := by
  have hstub : (findOutHeader (narrow key') [stubText key]).map
      (Option.map (valueBehind platform key')) ≠ some none := by
    intro heq
    rcases hfound : findOutHeader (narrow key') [stubText key] with _ | _ | data
    · rw [hfound] at heq
      cases heq
    · exact findOutHeader_stubText hkey h hfound
    · rw [hfound] at heq
      cases heq
  unfold LetsRead
  dsimp only
  rcases RequestCall.apply_cases hsmall (.setHeader key none) with hclear | ⟨_, _, ⟨⟩, _⟩ |
    ⟨_, _, ⟨⟩, _⟩ | ⟨_, _, _, _, _, ⟨⟩, _⟩ | ⟨_, first, rest, ⟨⟩, hlist, hfirst, happly⟩ |
    ⟨_, ⟨⟩, hnot, happly⟩
  · cases hclear
  · have hhead : ctrl.outHeaders.head?.any (beginsWith key) = true := by
      rw [hlist]
      exact hfirst
    rw [happly, getRequestHeader_eq (by simp), if_pos hhead]
    dsimp only
    by_cases hzero : ctrl.outHeaderCount = 0
    · rw [if_pos hzero]
      exact iff_of_true rfl hzero
    · rw [if_neg hzero]
      exact iff_of_false hstub hzero
  · have hhead : ¬ ctrl.outHeaders.head?.any (beginsWith key) = true := by
      cases hhead : ctrl.outHeaders.head? with
      | none => nofun
      | some first => simp [hnot first hhead]
    have hkept : ∀ data ∈ ctrl.outHeaders.filter (fun data => !beginsWith key data),
        beginsWith key' data = false := by
      intro data hdata
      rw [beginsWith_sameKey hkey h]
      simpa using (List.mem_filter.mp hdata).2
    have hcount : toUInt16 (ctrl.outHeaderCount + 65535 * ctrl.outHeaders.countP (beginsWith key)) =
        0 ↔ ctrl.outHeaderCount = ctrl.outHeaders.countP (beginsWith key) % 2 ^ 16 := by
      rw [toUInt16]
      omega
    rw [happly, getRequestHeader_eq (by simp), if_neg hhead, findOutHeader_append,
      findOutHeader_none hkept]
    dsimp only
    rw [← hcount]
    split_ifs with hzero
    · exact iff_of_true rfl hzero
    · exact iff_of_false hstub hzero

end Read

/-- **Read your writes**, after any calls on a fresh handle: `getRequestHeader` returns
what `setHeaderField` has just set exactly when the list lets it be read. -/
theorem reads_writes_iff (calls : List RequestCall) (platform : Platform)
    (hutf : DecodesAscii platform) (key key' : JString) (hkey : PlainName key)
    (h : SameKey key key') (value : Option JString) (hvalue : ∀ text ∈ value, Ascii text) :
    (RequestCall.apply (requestCalls nativeCreate calls) (.setHeader key value)).getRequestHeader
        platform key' = some value ↔
      LetsRead platform (requestCalls nativeCreate calls) key key' value := by
  have hsmall := outHeaderCount_requestCalls_lt calls
  cases value with
  | none => exact reads_null_iff hsmall hkey h
  | some value => exact reads_value_iff hutf hsmall hkey h (hvalue value rfl)

theorem reads_writes_otherCase :
    (RequestCall.apply (requestCalls nativeCreate [.addHeader [98] [50]])
      (.setHeader [97] (some [49]))).getRequestHeader latinPlatform [65] = some (some [49]) :=
  (reads_writes_iff [.addHeader [98] [50]] latinPlatform (fun _ _ => rfl) [97] [65]
    (by simp [PlainName]) rfl (some [49]) (by simp [Ascii])).mpr
      ⟨(by decide : 1 + 1 ≠ 2 ^ 16), (by decide : (0 : UInt16) ∉ [49])⟩

/-- A key is removed while another header is counted: the stub reads as an empty value. -/
theorem not_reads_writes_removed :
    ¬ (RequestCall.apply (requestCalls nativeCreate [.addHeader [98] [50]])
      (.setHeader [97] none)).getRequestHeader latinPlatform [97] = some none := by
  decide

end CurlData
end Chttpc
