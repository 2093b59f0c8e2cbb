import Chttpc.HeaderMap

/-!
# `HeaderPair` as a list

The values of a header are handed out as a `java.util.List`, and a pair stands for that list
in one of three ways: it holds the only value, an array of its own, or a window of the array
that all headers of a response share.  A pair made of a window that is not copied keeps the
array, so what lies around the window is in reach.

`HonoursList` is the contract of `List.get` at one index.  The bound that `get` checks is
`to`, the end of the window in the array, and not the number of values; the index itself is
only checked by the array.  So a window that does not begin the array is too wide on both
sides: by as many indices as lie before it, where they are negative, and by as many behind
it, as far as the array goes.  A bare string is given out at every negative index.

A pair that grows by `append` starts as a string and goes on as an array of its own, which
ends at `to` each time.  `Grown` is what the growing keeps.
-/

namespace Chttpc

/-! ## Growing -/

namespace HeaderPair

/-- `Arrays.copyOf`. -/
def copyOf (array : List (Option JString)) (newLength : Nat) : List (Option JString) :=
  array.take newLength ++ List.replicate (newLength - array.length) none

/-- `new HeaderPair(key, value)`. -/
def ofString (key : JString) (value : Option JString) : HeaderPair := ⟨key, .string value, 0, 1⟩

/-- `append`; `none` if it throws. -/
def append (pair : HeaderPair) (element : Option JString) : Option HeaderPair :=
  if pair.size = 1 then
    match pair.value with
    | .string one => some { pair with value := .array [one, element], stop := pair.stop + 1 }
    | .array _ => none
  else
    match pair.value with
    | .string _ => none
    | .array store =>
        let store := if pair.size ≥ store.length then copyOf store (pair.size + 1).toNat else store
        -- the new value goes to the index `to`, which the array checks
        if 0 ≤ pair.stop ∧ pair.stop < store.length then
          some { pair with
            value := .array (store.set pair.stop.toNat element), stop := pair.stop + 1 }
        else none

/-- The only value as it is, and several of them in an array. -/
def heldAs (values : List JString) : PairValue :=
  match values with
  | [value] => .string (some value)
  | _ => .array (values.map some)

theorem heldAs_array {values : List JString} (h : values.length ≠ 1) :
    heldAs values = .array (values.map some) := by
  unfold heldAs
  split
  · exact absurd rfl h
  · rfl

/-- A pair to which the values have been appended. -/
structure Grown (pair : HeaderPair) (key : JString) (values : List JString) : Prop where
  key_eq : pair.key = key
  start_eq : pair.start = 0
  stop_eq : pair.stop = values.length
  value_eq : pair.value = heldAs values

section Grown
variable {pair : HeaderPair} {key : JString} {values : List JString}

theorem Grown.ofString (key value : JString) : Grown (ofString key (some value)) key [value] :=
  ⟨rfl, rfl, rfl, rfl⟩

theorem Grown.size_eq (h : Grown pair key values) : pair.size = values.length := by
  rw [size, h.start_eq, h.stop_eq]
  omega

/-- The array is full each time, so it is copied to one that has room for one more. -/
theorem set_copyOf (values : List JString) (element : Option JString) :
    (copyOf (values.map some) (values.length + 1)).set values.length element =
      values.map some ++ [element] := by
  have htake : (values.map some).take (values.length + 1) = values.map some :=
    List.take_of_length_le (by simp)
  have hroom : values.length + 1 - (values.map some).length = 1 := by
    rw [List.length_map]
    omega
  rw [copyOf, htake, hroom, List.set_append_right _ _ (by simp)]
  simp

theorem Grown.append (h : Grown pair key values) (hne : values ≠ []) (element : JString) :
    ∃ pair', pair.append (some element) = some pair' ∧ Grown pair' key (values ++ [element]) := by
  have hpos := List.length_pos_of_ne_nil hne
  have hmany : (values ++ [element]).length ≠ 1 := by
    rw [List.length_append, List.length_singleton]
    omega
  have hstop : pair.stop + 1 = (values ++ [element]).length := by
    rw [h.stop_eq, List.length_append, List.length_singleton]
    omega
  unfold HeaderPair.append
  by_cases hone : values.length = 1
  · obtain ⟨value, rfl⟩ := List.length_eq_one_iff.mp hone
    rw [if_pos (by rw [h.size_eq, hone]; rfl), h.value_eq]
    exact ⟨_, rfl, h.key_eq, h.start_eq, hstop, (heldAs_array hmany).symm⟩
  · have hfull : pair.size ≥ (values.map some).length := by
      have hsize := h.size_eq
      rw [List.length_map]
      omega
    have hlength : (pair.size + 1).toNat = values.length + 1 := by
      rw [h.size_eq]
      omega
    have hindex : pair.stop.toNat = values.length := by
      rw [h.stop_eq]
      omega
    have hroom : 0 ≤ pair.stop ∧
        pair.stop < (copyOf (values.map some) (values.length + 1)).length := by
      have hstop := h.stop_eq
      simp only [copyOf, List.length_append, List.length_take, List.length_map,
        List.length_replicate]
      omega
    rw [if_neg (by rw [h.size_eq]; omega), h.value_eq, heldAs_array hone]
    simp only [if_pos hfull, hlength, hindex, if_pos hroom, set_copyOf]
    refine ⟨_, rfl, h.key_eq, h.start_eq, hstop, ?_⟩
    rw [heldAs_array hmany, List.map_append]
    rfl

/-- Values appended one after another. -/
def appends (pair : HeaderPair) (more : List JString) : Option HeaderPair :=
  more.foldlM (fun pair element => pair.append (some element)) pair

theorem Grown.appends (more : List JString) (h : Grown pair key values) (hne : values ≠ []) :
    ∃ pair', pair.appends more = some pair' ∧ Grown pair' key (values ++ more) := by
  -- Induction on the values to come, with `Grown` for those that have come.
  induction more generalizing pair values with
  | nil => exact ⟨pair, rfl, by rw [List.append_nil]; exact h⟩
  | cons element more ih =>
    obtain ⟨pair', happend, h'⟩ := h.append hne element
    obtain ⟨pair'', hmore, h''⟩ := ih h' (List.append_ne_nil_of_right_ne_nil _ (List.cons_ne_nil _ _))
    refine ⟨pair'', ?_, by rw [List.append_cons]; exact h''⟩
    rw [HeaderPair.appends, List.foldlM_cons, happend]
    exact hmore

end Grown

/-! ## The contract of `List.get` -/

/-- The value with that index, and an exception if there is none. -/
def HonoursList (pair : HeaderPair) (values : List JString) (index : Int) : Prop :=
  pair.get index = if 0 ≤ index then values[index.toNat]?.map some else none

section Contract
variable {pair : HeaderPair} {key : JString} {values : List JString} {index : Int}

/-- A bare string is the value at index 0, and at every negative one. -/
theorem honoursList_string {value : JString} :
    HonoursList ⟨key, .string (some value), 0, 1⟩ [value] index ↔ 0 ≤ index := by
  unfold HonoursList HeaderPair.get
  by_cases hstop : index ≥ 1
  · obtain ⟨n, rfl⟩ := Int.eq_ofNat_of_zero_le (by omega : 0 ≤ index)
    have hnone : [value][n]? = none := List.getElem?_eq_none (by rw [List.length_singleton]; omega)
    simp [hstop, hnone]
  · by_cases hneg : 0 ≤ index
    · have hzero : index = 0 := by omega
      simp [hzero]
    · simp [hstop, hneg]

/-- An array of its own is checked on both sides. -/
theorem honoursList_array (index : Int) :
    HonoursList ⟨key, .array (values.map some), 0, values.length⟩ values index := by
  unfold HonoursList HeaderPair.get
  by_cases hneg : 0 ≤ index
  · obtain ⟨n, rfl⟩ := Int.eq_ofNat_of_zero_le hneg
    by_cases hn : n < values.length
    · simp [hn, Nat.not_le.mpr hn]
    · simp [hn, Nat.not_lt.mp hn]
  · have hstop : ¬ index ≥ values.length := by omega
    simp [hneg, hstop]

/-- A window with a value begins inside the array. -/
theorem start_lt_of_window {array rest : List (Option JString)} {start : Nat} (hne : values ≠ [])
    (harray : array.drop start = values.map some ++ rest) : start < array.length := by
  have hlen := congrArg List.length harray
  have hpos := List.length_pos_of_ne_nil hne
  rw [List.length_drop, List.length_append, List.length_map] at hlen
  omega

/-- A window of an array is too wide on both sides, as far as the array goes. -/
theorem honoursList_window {array rest : List (Option JString)} {start : Nat} (hne : values ≠ [])
    (harray : array.drop start = values.map some ++ rest) (index : Int) :
    HonoursList ⟨key, .array array, start, (start + values.length : Nat)⟩ values index ↔
      ¬ (-start ≤ index ∧ index < 0) ∧
        ¬ (values.length ≤ index ∧ index < start + values.length ∧
          start + index < array.length) := by
  have hstart := start_lt_of_window hne harray
  have hget : HeaderPair.get ⟨key, .array array, start, (start + values.length : Nat)⟩ index =
      if index ≥ (start + values.length : Nat) then none
      else if (start : Int) + index < 0 then none else array[(start + index).toNat]? := rfl
  unfold HonoursList
  rw [hget]
  by_cases hneg : index < 0
  · -- the array checks the position and not the index
    have hstop : ¬ index ≥ (start + values.length : Nat) := by omega
    have hnone : ¬ 0 ≤ index := by omega
    rw [if_neg hstop, if_neg hnone]
    by_cases hbefore : (start : Int) + index < 0
    · rw [if_pos hbefore]
      simp
      omega
    · have hlt : ((start : Int) + index).toNat < array.length := by omega
      rw [if_neg hbefore, List.getElem?_eq_getElem hlt]
      simp
      omega
  · obtain ⟨n, rfl⟩ := Int.eq_ofNat_of_zero_le (Int.not_lt.mp hneg)
    have hindex : ((start : Int) + n).toNat = start + n := by omega
    have hwithin : ¬ (start : Int) + n < 0 := by omega
    rw [if_neg hwithin, if_pos (Int.not_lt.mp hneg), Int.toNat_natCast, hindex]
    by_cases hn : n < values.length
    · have hstop : ¬ (n : Int) ≥ (start + values.length : Nat) := by omega
      rw [if_neg hstop, getElem?_window harray hn, List.getElem?_eq_getElem hn]
      simp
      omega
    · rw [List.getElem?_eq_none (Nat.not_lt.mp hn)]
      by_cases hstop : (n : Int) ≥ (start + values.length : Nat)
      · rw [if_pos hstop]
        simp
        omega
      · rw [if_neg hstop]
        simp
        omega

end Contract
end HeaderPair

/-! ## The pairs of a map -/

/-- A window `[start, start + values.length)` whose elements are there. -/
structure Window where
  array : List (Option JString)
  start : Nat
  values : List JString
  nonempty : values ≠ []
  within : values.map some <+: array.drop start

/-- What `HeaderMap.append` makes a pair of: a window of an array, or values that are given
one after another. -/
inductive PairSource
  | window (w : Window)
  | values (first : JString) (more : List JString)

namespace PairSource

def pair (key : JString) : PairSource → Option HeaderPair
  | .window w => pairOf key w.array w.start (w.start + w.values.length)
  | .values first more => (HeaderPair.ofString key (some first)).appends more

/-- The values that the list has. -/
def listed : PairSource → List JString
  | .window w => w.values
  | .values first more => first :: more

/-- Where the check of `get` is the right one. -/
def Checked : PairSource → Int → Prop
  | .window w, index =>
      if w.values.length = 1 then 0 ≤ index
      else if 80 < w.array.length then True
      else
        ¬ (-w.start ≤ index ∧ index < 0) ∧
          ¬ (w.values.length ≤ index ∧ index < w.start + w.values.length ∧
            w.start + index < w.array.length)
  | .values _ more, index => more = [] → 0 ≤ index

end PairSource

open HeaderPair

theorem honoursList_pairOf_iff (key : JString) (w : Window) (index : Int) :
    ∃ pair, pairOf key w.array w.start (w.start + w.values.length) = some pair ∧
      (HonoursList pair w.values index ↔ (PairSource.window w).Checked index) := by
  obtain ⟨array, start, values, hne, rest, hrest⟩ := w
  have hpos := List.length_pos_of_ne_nil hne
  have hlength : ((start + values.length : Nat) : Int) - start = values.length := by omega
  simp only [pairOf, PairSource.Checked, hlength]
  by_cases hone : values.length = 1
  · obtain ⟨value, rfl⟩ := List.length_eq_one_iff.mp hone
    have hfirst := getElem?_window hrest.symm hpos
    rw [Nat.add_zero] at hfirst
    refine ⟨⟨key, .string (some value), 0, 1⟩, by simp [hfirst], ?_⟩
    simpa using honoursList_string
  · rw [if_neg (by omega), if_neg hone]
    by_cases hlong : 80 < array.length
    · have hle : start ≤ array.length := Nat.le_of_lt (start_lt_of_window hne hrest.symm)
      have hcopy : copyOfRange array start (start + values.length) = some (values.map some) := by
        simp [copyOfRange, ← hrest, Nat.not_lt.mpr hle]
      refine ⟨⟨key, .array (values.map some), 0, values.length⟩, by simp [hlong, hcopy], ?_⟩
      simpa [hlong] using honoursList_array index
    · refine ⟨⟨key, .array array, start, (start + values.length : Nat)⟩, by simp [hlong], ?_⟩
      rw [if_neg hlong]
      exact honoursList_window hne hrest.symm index

/-- An array that has grown with the list ends where the list ends. -/
theorem HeaderPair.Grown.honoursList_iff {pair : HeaderPair} {key first : JString} {more : List JString}
    (h : Grown pair key (first :: more)) (index : Int) :
    HonoursList pair (first :: more) index ↔ (more = [] → 0 ≤ index) := by
  obtain ⟨key, value, start, stop⟩ := pair
  obtain ⟨rfl, rfl, rfl, rfl⟩ := h
  by_cases hmore : more = []
  · subst hmore
    have hstring : HonoursList ⟨key, heldAs [first], 0, 1⟩ [first] index ↔ 0 ≤ index :=
      honoursList_string
    simpa using hstring
  · have hmany : (first :: more).length ≠ 1 := by simpa using hmore
    rw [heldAs_array hmany]
    exact iff_of_true (honoursList_array index) fun hnil => absurd hnil hmore

/-- **When a pair is the list of its values.**  At any index, a pair that the map makes of a
window, or of values one after another, answers with the value that has the index, or throws
if there is none, exactly if: a single value is not asked for at a negative index; and in a
window of two values or more of an array that is not copied, the index is neither a negative
one that reaches back into the array, nor one behind the values, below the end of the window
in the array, that reaches forward in it. -/
theorem honours_list_iff (key : JString) (source : PairSource) (index : Int) :
    ∃ pair, source.pair key = some pair ∧
      (HonoursList pair source.listed index ↔ source.Checked index) := by
  cases source with
  | window w => exact honoursList_pairOf_iff key w index
  | values first more =>
    obtain ⟨pair, hpair, hgrown⟩ :=
      (Grown.ofString key first).appends more (List.cons_ne_nil _ _)
    exact ⟨pair, hpair, hgrown.honoursList_iff index⟩

/-- The array of a response with the values `1` and `2` under `a` and `3` and `4` under `b`. -/
def twoHeaders : List (Option JString) :=
  layout [([97], [[49], [50]]), ([98], [[51], [52]])]

/-- The list of `a` has the separator behind its values, and the list of `b` has, before its
values, the name, the separator and the values of `a`. -/
theorem not_honours_list :
    (∃ pair, pairOf [97] twoHeaders 1 3 = some pair ∧ pair.get 2 = some none ∧
      ¬ HonoursList pair [[49], [50]] 2) ∧
    ∃ pair, pairOf [98] twoHeaders 5 7 = some pair ∧ pair.get (-1) = some (some [98]) ∧
      pair.get (-3) = some (some [50]) ∧ ¬ HonoursList pair [[51], [52]] (-1) := by
  refine ⟨⟨_, rfl, by decide, ?_⟩, ⟨_, rfl, by decide, by decide, ?_⟩⟩
  · unfold HonoursList
    decide
  · unfold HonoursList
    decide

end Chttpc
