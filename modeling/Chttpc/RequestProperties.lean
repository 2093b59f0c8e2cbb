import Chttpc.HeaderPairs
import Chttpc.RequestReadback
import Mathlib.Data.Finset.Card

/-!
# The map of the request headers: `getRequestProperties`

The request headers reach Java as one array, a name and its value in turn, with nulls at the
end.  They are made into a map one pair after another: the first value under a name makes a
new `HeaderPair`, and any other is appended to the pair that is there.

The pair is an object, and the map refers to it: appending to a pair changes what the map
answers under its key, and nothing else.  `HdrMap` knows pairs only as values, so what is
relied on is stated as `PairObjects`.

`Collected` is the invariant of the loop.  It says what the map answers: nothing under a key
that no name so far matches, and under any other key of ASCII characters a pair that has grown
with the values under the names that match, in their order.
-/

namespace Chttpc
open HeaderPair
open CurlData (Ascii)

/-! ## The methods -/

/-- A map of pairs that are changed in place: `become m key pair` is the map once the pair
found under `key` has become `pair`. -/
structure PairObjects {equals : JString → JString → Bool} (H : HdrMap equals) where
  become : H.Map → JString → HeaderPair → H.Map
  size_become : ∀ m key pair, H.size (become m key pair) = H.size m
  requested_become : ∀ m key pair, H.requested (become m key pair) = H.requested m
  get_become : ∀ m key old pair, H.get m key = some old →
    ∀ k, (equals key k = true → lower key = lower k) →
      H.get (become m key pair) k = if equals key k then some pair else H.get m k

section Methods
variable {equals : JString → JString → Bool} {H : HdrMap equals} (O : PairObjects H)

/-- `HeaderMap.append` of one value; `none` if it throws. -/
def appendValue (m : H.Map) (key : JString) (value : Option JString) : Option H.Map :=
  match H.get m key with
  | none => H.put m key (HeaderPair.ofString key value)
  | some pair => (pair.append value).map (O.become m key)

/-- The loop of `getRequestProperties`, over what is left of the array; `none` if it
throws. -/
def addPairs : List (Option JString) → H.Map → Option H.Map
  | [], m => some m
  | none :: _, m => some m
  -- a name at the end of the array has no value
  | [some _], _ => none
  | some key :: value :: rest, m => (appendValue O m key value).bind (addPairs rest)

/-- `CurlConnection.getRequestProperties`, after `assertNotConnected`. -/
def getRequestProperties (headerArray : Option (List (Option JString))) :
    Option (HeaderFields H) :=
  match headerArray with
  | none => some .emptyMap
  | some headerArray =>
      (addPairs O headerArray (H.new headerArray.length)).map .headerMap

end Methods

/-! ## Names -/

/-- The tables are those of ASCII where they are asked for ASCII. -/
structure CaseTables.Standard (tables : CaseTables) : Prop where
  upper_eq : ∀ c : UInt16, c < 128 →
    tables.toUpperCase c = if 97 ≤ c ∧ c ≤ 122 then c - 32 else c
  lower_eq : ∀ c : UInt16, c < 128 → tables.toLowerCase c = lowerChar c

section Names
variable {tables : CaseTables} {a b : JString}

theorem CaseTables.Standard.fold_eq (h : tables.Standard) {c : UInt16} (hc : c < 128) :
    tables.fold c = lowerChar c := by
  unfold fold
  rw [h.upper_eq c hc]
  by_cases hletter : 97 ≤ c ∧ c ≤ 122
  · rw [if_pos hletter, h.lower_eq _ (by grind)]
    unfold lowerChar
    grind
  · rw [if_neg hletter, h.lower_eq c hc]

theorem CaseTables.Standard.map_fold (h : tables.Standard) (ha : Ascii a) :
    a.map tables.fold = lower a :=
  List.map_congr_left fun c hc => h.fold_eq (ha c hc)

/-- On ASCII names, ignoring case is what it says. -/
theorem CaseTables.Standard.equalsIgnoreCase_iff (h : tables.Standard) (ha : Ascii a)
    (hb : Ascii b) : tables.equalsIgnoreCase a b = true ↔ lower a = lower b := by
  rw [tables.equalsIgnoreCase_eq, beq_iff_eq, h.map_fold ha, h.map_fold hb]

end Names

/-! ## The loop -/

/-- The values under the names that match a key. -/
def valuesUnder (tables : CaseTables) (pairs : List (JString × JString)) (key : JString) :
    List JString :=
  (pairs.filter fun p => tables.equalsIgnoreCase p.1 key).map (·.2)

/-- The names that differ from each other when case is ignored. -/
def distinctNames (pairs : List (JString × JString)) : Finset JString :=
  (pairs.map fun p => lower p.1).toFinset

section Loop
variable {tables : CaseTables} {H : HdrMap tables.equalsIgnoreCase} {m : H.Map}
  {pairs : List (JString × JString)} {p : JString × JString} {key : JString}

theorem valuesUnder_concat : valuesUnder tables (pairs ++ [p]) key =
    valuesUnder tables pairs key ++ if tables.equalsIgnoreCase p.1 key then [p.2] else [] := by
  rw [valuesUnder, List.filter_append, List.map_append, valuesUnder]
  by_cases hp : tables.equalsIgnoreCase p.1 key = true <;> simp [hp]

/-- Keys that match each other have the same values. -/
theorem valuesUnder_congr (h : tables.equalsIgnoreCase p.1 key = true) :
    valuesUnder tables pairs p.1 = valuesUnder tables pairs key := by
  unfold valuesUnder
  congr 1
  refine List.filter_congr fun q _ => Bool.eq_iff_iff.mpr ⟨fun hq => ?_, fun hq => ?_⟩
  · exact tables.equalsIgnoreCase_trans _ _ _ hq h
  · rw [tables.equalsIgnoreCase_comm] at h
    exact tables.equalsIgnoreCase_trans _ _ _ hq h

/-- What the map is after the pairs have been added. -/
structure Collected (H : HdrMap tables.equalsIgnoreCase) (m : H.Map)
    (pairs : List (JString × JString)) : Prop where
  size_eq : H.size m = (distinctNames pairs).card
  get_none : ∀ key, valuesUnder tables pairs key = [] → H.get m key = none
  get_some : ∀ key, Ascii key → valuesUnder tables pairs key ≠ [] →
    ∃ pair name, H.get m key = some pair ∧ Grown pair name (valuesUnder tables pairs key)

theorem Collected.new (n : Nat) : Collected H (H.new n) [] where
  size_eq := H.size_new n
  get_none := fun key _ => H.get_new n key
  get_some := fun _ _ h => absurd rfl h

/-- A name is new if and only if the map does not answer under it. -/
theorem valuesUnder_eq_nil_iff (hstandard : tables.Standard) (hpairs : ∀ q ∈ pairs, Ascii q.1)
    (hkey : Ascii key) : valuesUnder tables pairs key = [] ↔ lower key ∉ distinctNames pairs := by
  unfold valuesUnder distinctNames
  rw [List.map_eq_nil_iff, List.filter_eq_nil_iff, List.mem_toFinset, List.mem_map]
  constructor
  · rintro h ⟨q, hq, hlower⟩
    exact h q hq ((hstandard.equalsIgnoreCase_iff (hpairs q hq) hkey).mpr hlower)
  · intro h q hq hmatch
    exact h ⟨q, hq, (hstandard.equalsIgnoreCase_iff (hpairs q hq) hkey).mp hmatch⟩

theorem distinctNames_concat :
    distinctNames (pairs ++ [p]) = insert (lower p.1) (distinctNames pairs) := by
  unfold distinctNames
  rw [List.map_append, List.toFinset_append, Finset.union_comm]
  rfl

theorem card_distinctNames_le : (distinctNames pairs).card ≤ pairs.length := by
  have h := (pairs.map fun p => lower p.1).toFinset_card_le
  rwa [List.length_map] at h

/-- A map that answers with the pair under every key that the name matches, and that has its
hash. -/
theorem Collected.updated {m' : H.Map} {pair : HeaderPair} {name : JString} (h : Collected H m pairs)
    (hstandard : tables.Standard) (hname : Ascii p.1)
    (hsize : H.size m' = (distinctNames (pairs ++ [p])).card)
    (hget : ∀ k, (tables.equalsIgnoreCase p.1 k = true → lower p.1 = lower k) →
      H.get m' k = if tables.equalsIgnoreCase p.1 k then some pair else H.get m k)
    (hgrown : Grown pair name (valuesUnder tables pairs p.1 ++ [p.2])) :
    Collected H m' (pairs ++ [p]) := by
  refine ⟨hsize, fun key hnil => ?_, fun key hkey hne => ?_⟩
  · rw [valuesUnder_concat, List.append_eq_nil_iff] at hnil
    have hother : ¬ tables.equalsIgnoreCase p.1 key = true := fun hmatch => by simp [hmatch] at hnil
    rw [hget key fun hmatch => absurd hmatch hother, if_neg hother]
    exact h.get_none key hnil.1
  · rw [hget key (hstandard.equalsIgnoreCase_iff hname hkey).mp]
    by_cases hmatch : tables.equalsIgnoreCase p.1 key = true
    · rw [if_pos hmatch, valuesUnder_concat, if_pos hmatch, ← valuesUnder_congr hmatch]
      exact ⟨pair, name, rfl, hgrown⟩
    · have hsame : valuesUnder tables (pairs ++ [p]) key = valuesUnder tables pairs key := by
        rw [valuesUnder_concat, if_neg hmatch, List.append_nil]
      rw [hsame] at hne ⊢
      rw [if_neg hmatch]
      exact h.get_some key hkey hne

/-- **One pair**: a new name gets a pair of its own, and another one has its pair changed in
place. -/
theorem Collected.append (O : PairObjects H) (h : Collected H m pairs)
    (hstandard : tables.Standard) (hpairs : ∀ q ∈ pairs, Ascii q.1) (hname : Ascii p.1)
    (hroom : pairs.length < H.requested m) :
    ∃ m', appendValue O m p.1 (some p.2) = some m' ∧ H.requested m' = H.requested m ∧
      Collected H m' (pairs ++ [p]) := by
  have hiff := valuesUnder_eq_nil_iff hstandard hpairs hname
  by_cases hnew : valuesUnder tables pairs p.1 = []
  · have hsize : H.size m < H.requested m := by
      rw [h.size_eq]
      exact Nat.lt_of_le_of_lt card_distinctNames_le hroom
    obtain ⟨m', hput, hsize', hrequested, hget⟩ :=
      H.put_absent m p.1 (HeaderPair.ofString p.1 (some p.2)) (h.get_none p.1 hnew) hsize
    refine ⟨m', ?_, hrequested, h.updated hstandard hname ?_ hget
      (by rw [hnew]; exact Grown.ofString p.1 p.2)⟩
    · rw [appendValue, h.get_none p.1 hnew]
      exact hput
    · rw [hsize', h.size_eq, distinctNames_concat, Finset.card_insert_of_notMem (hiff.mp hnew)]
  · obtain ⟨old, name, hold, hgrown⟩ := h.get_some p.1 hname hnew
    obtain ⟨pair, happend, hgrown'⟩ := hgrown.append hnew p.2
    have hknown : lower p.1 ∈ distinctNames pairs := not_not.mp fun hfresh => hnew (hiff.mpr hfresh)
    refine ⟨O.become m p.1 pair, ?_, O.requested_become m p.1 pair,
      h.updated hstandard hname ?_ (O.get_become m p.1 old pair hold) hgrown'⟩
    · rw [appendValue, hold]
      exact congrArg (Option.map _) happend
    · rw [O.size_become, h.size_eq, distinctNames_concat, Finset.insert_eq_of_mem hknown]

/-- The array of the pairs, with nulls behind them. -/
def headerArrayOf (pairs : List (JString × JString)) (nulls : Nat) : List (Option JString) :=
  (pairs.flatMap fun p => [some p.1, some p.2]) ++ List.replicate nulls none

theorem Collected.addPairs (O : PairObjects H) (hstandard : tables.Standard) (nulls : Nat)
    (more : List (JString × JString)) (h : Collected H m pairs)
    (hascii : ∀ q ∈ pairs ++ more, Ascii q.1) (hroom : (pairs ++ more).length ≤ H.requested m) :
    ∃ m', addPairs O (headerArrayOf more nulls) m = some m' ∧ Collected H m' (pairs ++ more) := by
  induction more generalizing m pairs with
  | nil =>
    refine ⟨m, ?_, by rw [List.append_nil]; exact h⟩
    cases nulls <;> rfl
  | cons p more ih =>
    have hbefore : ∀ q ∈ pairs, Ascii q.1 := fun q hq => hascii q (List.mem_append_left _ hq)
    have hlength : pairs.length < H.requested m := by
      rw [List.length_append, List.length_cons] at hroom
      omega
    obtain ⟨m₁, happend, hrequested, h₁⟩ := h.append O hstandard hbefore
      (hascii p (List.mem_append_right _ List.mem_cons_self)) hlength
    rw [List.append_cons] at hascii hroom ⊢
    obtain ⟨m', hmore, h'⟩ := ih h₁ hascii (by rw [hrequested]; exact hroom)
    refine ⟨m', ?_, h'⟩
    show (appendValue O m p.1 (some p.2)).bind (Chttpc.addPairs O (headerArrayOf more nulls)) = _
    rw [happend]
    exact hmore

end Loop

theorem HeaderPair.Grown.yields {pair : HeaderPair} {name : JString} {values : List JString}
    (h : Grown pair name values) (hne : values ≠ []) : Yields pair values := by
  obtain ⟨first, more, rfl⟩ := List.exists_cons_of_ne_nil hne
  refine ⟨h.size_eq, fun i hi => ?_⟩
  have hlist := (h.honoursList_iff i).mpr fun _ => Int.natCast_nonneg i
  rw [HonoursList, if_pos (Int.natCast_nonneg i), Int.toNat_natCast,
    List.getElem?_eq_getElem hi] at hlist
  exact hlist

theorem length_headerArrayOf (pairs : List (JString × JString)) (nulls : Nat) :
    pairs.length ≤ (headerArrayOf pairs nulls).length := by
  rw [headerArrayOf, List.length_append, List.length_flatMap]
  simp
  omega

/-- **The request headers as a map.**  For any array of ASCII names, each with a value, and
nulls behind them: the map has one entry for each name, with case ignored, and the list of
the entry has the values under the name, in the order of the array; under any other key the
map has nothing. -/
theorem request_properties_collected {tables : CaseTables} (hstandard : tables.Standard)
    {H : HdrMap tables.equalsIgnoreCase} (O : PairObjects H) (pairs : List (JString × JString))
    (hascii : ∀ p ∈ pairs, Ascii p.1) (nulls : Nat) :
    ∃ m, getRequestProperties O (some (headerArrayOf pairs nulls)) = some (.headerMap m) ∧
      H.size m = (distinctNames pairs).card ∧
      (∀ p ∈ pairs, ∃ pair, H.get m p.1 = some pair ∧
        Yields pair ((pairs.filter fun q => lower q.1 = lower p.1).map (·.2))) ∧
      ∀ key, (∀ p ∈ pairs, tables.equalsIgnoreCase p.1 key = false) → H.get m key = none := by
  obtain ⟨m, hadded, h⟩ := (Collected.new (H := H) (headerArrayOf pairs nulls).length).addPairs O
    hstandard nulls pairs hascii (by
      rw [H.requested_new]
      exact length_headerArrayOf pairs nulls)
  rw [List.nil_append] at h
  refine ⟨m, by rw [getRequestProperties, hadded]; rfl, h.size_eq, fun p hp => ?_,
    fun key hkey => ?_⟩
  · have hvalues : valuesUnder tables pairs p.1 =
        (pairs.filter fun q => lower q.1 = lower p.1).map (·.2) := by
      unfold valuesUnder
      congr 1
      refine List.filter_congr fun q hq => Bool.eq_iff_iff.mpr ?_
      rw [hstandard.equalsIgnoreCase_iff (hascii q hq) (hascii p hp), decide_eq_true_iff]
    have hne : valuesUnder tables pairs p.1 ≠ [] := by
      intro hnil
      have hp' : p ∈ pairs.filter fun q => tables.equalsIgnoreCase q.1 p.1 :=
        List.mem_filter.mpr ⟨hp, tables.equalsIgnoreCase_refl p.1⟩
      rw [List.map_eq_nil_iff.mp hnil] at hp'
      exact absurd hp' List.not_mem_nil
    obtain ⟨pair, name, hget, hgrown⟩ := h.get_some p.1 (hascii p hp) hne
    exact ⟨pair, hget, hvalues ▸ hgrown.yields hne⟩
  · refine h.get_none key (List.map_eq_nil_iff.mpr (List.filter_eq_nil_iff.mpr fun p hp => ?_))
    rw [hkey p hp]
    decide

/-- A list of entries, whose pairs are changed in place. -/
def listObjects (tables : CaseTables) : PairObjects (listMap tables.equalsIgnoreCase) where
  become m key pair :=
    (m.1, m.2.map fun e => if tables.equalsIgnoreCase e.1 key then (e.1, pair) else e)
  size_become _ _ _ := by simp [listMap]
  requested_become _ _ _ := rfl
  get_become m key old pair hold k _ := by
    have hkeys : ((fun e : JString × HeaderPair => tables.equalsIgnoreCase e.1 k) ∘
        fun e => if tables.equalsIgnoreCase e.1 key then (e.1, pair) else e) =
        fun e => tables.equalsIgnoreCase e.1 k := by
      funext e
      by_cases he : tables.equalsIgnoreCase e.1 key = true <;> simp [he]
    show ((m.2.map _).find? _).map _ = if _ then _ else (m.2.find? _).map _
    rw [List.find?_map, hkeys]
    by_cases hmatch : tables.equalsIgnoreCase key k = true
    · have hsame : (fun e : JString × HeaderPair => tables.equalsIgnoreCase e.1 k) =
          fun e => tables.equalsIgnoreCase e.1 key := by
        funext e
        refine Bool.eq_iff_iff.mpr ⟨fun he => ?_, fun he => ?_⟩
        · rw [tables.equalsIgnoreCase_comm] at hmatch
          exact tables.equalsIgnoreCase_trans _ _ _ he hmatch
        · exact tables.equalsIgnoreCase_trans _ _ _ he hmatch
      obtain ⟨e, he, -⟩ := Option.map_eq_some_iff.mp hold
      rw [if_pos hmatch, hsame, he, Option.map_some, Option.map_some,
        if_pos (List.find?_some he)]
    · rw [if_neg hmatch]
      cases he : m.2.find? fun e => tables.equalsIgnoreCase e.1 k with
      | none => rfl
      | some e =>
        have hfound : tables.equalsIgnoreCase e.1 k = true := by simpa using List.find?_some he
        have hother : ¬ tables.equalsIgnoreCase e.1 key = true := by
          intro hkey
          rw [tables.equalsIgnoreCase_comm] at hkey
          exact hmatch (tables.equalsIgnoreCase_trans _ _ _ hkey hfound)
        rw [Option.map_some, if_neg hother]

/-- The case tables of ASCII. -/
def asciiTables : CaseTables := ⟨fun c => if 97 ≤ c ∧ c ≤ 122 then c - 32 else c, lowerChar⟩

/-- Two values under `A` and `a`, and one under `b` between them. -/
def mixedPairs : List (JString × JString) := [([65], [49]), ([98], [50]), ([97], [51])]

theorem request_properties_mixedPairs :
    ∃ m, getRequestProperties (listObjects asciiTables) (some (headerArrayOf mixedPairs 1)) =
        some (.headerMap m) ∧
      (listMap asciiTables.equalsIgnoreCase).size m = (distinctNames mixedPairs).card ∧
      (∀ p ∈ mixedPairs, ∃ pair, (listMap asciiTables.equalsIgnoreCase).get m p.1 = some pair ∧
        Yields pair ((mixedPairs.filter fun q => lower q.1 = lower p.1).map (·.2))) ∧
      ∀ key, (∀ p ∈ mixedPairs, asciiTables.equalsIgnoreCase p.1 key = false) →
        (listMap asciiTables.equalsIgnoreCase).get m key = none :=
  request_properties_collected ⟨fun _ _ => rfl, fun _ _ => rfl⟩ (listObjects asciiTables) mixedPairs
    (by simp [mixedPairs, Ascii]) 1

end Chttpc
