import Chttpc.HeaderArray

/-!
# The header map in Java: `getHeaderFields`

The array made by `getResponseHeaders` is decoded into a map from names to lists
of values.  A list with one value holds the string, a longer one holds the array
and the window `[from, to)` of its values; if the array is long the window is
copied out of it first.

The map underneath is a hash map of a third party, with the comparison replaced
by `equalsIgnoreCase`.  `HdrMap` states what is relied on: one value for each key
under the comparison, and room for as many keys as were asked for; an insertion
that would need more room throws, which is what the override does.  A key that
matches another is found if it has the same hash, so if it is the same up to
`A`-`Z`; under any other key that matches, the map may answer or not.  The case
tables of `java.lang.Character` are a parameter (`CaseTables`).
-/

namespace Chttpc
open CircularList

/-! ## The classes -/

/-- `Character.toUpperCase` and `Character.toLowerCase`. -/
structure CaseTables where
  toUpperCase : UInt16 → UInt16
  toLowerCase : UInt16 → UInt16

/-- `String.equalsIgnoreCase`. -/
def CaseTables.equalsIgnoreCase (tables : CaseTables) : JString → JString → Bool
  | [], [] => true
  | a :: as, b :: bs =>
      (a == b || tables.toUpperCase a == tables.toUpperCase b ||
        tables.toLowerCase (tables.toUpperCase a) == tables.toLowerCase (tables.toUpperCase b)) &&
      tables.equalsIgnoreCase as bs
  | _, _ => false

/-- `A`-`Z` to `a`-`z`, and nothing else. -/
def lowerChar (c : UInt16) : UInt16 := if 65 ≤ c ∧ c ≤ 90 then c + 32 else c

def lower (name : JString) : JString := name.map lowerChar

/-- The field `value` of `HeaderPair`. -/
inductive PairValue
  | string (value : Option JString)
  | array (values : List (Option JString))
  deriving DecidableEq, Repr

/-- `HeaderPair`. -/
structure HeaderPair where
  key : JString
  value : PairValue
  start : Int
  stop : Int
  deriving DecidableEq, Repr

namespace HeaderPair

/-- `get`; `none` if it throws. -/
def get (pair : HeaderPair) (index : Int) : Option (Option JString) :=
  if index ≥ pair.stop then none
  else
    match pair.value with
    | .string value => value.map some
    | .array values =>
        if pair.start + index < 0 then none else values[(pair.start + index).toNat]?

def size (pair : HeaderPair) : Int := pair.stop - pair.start

end HeaderPair

/-- `HdrMap`, a hash map whose keys are compared by `equals`. -/
structure HdrMap (equals : JString → JString → Bool) where
  Map : Type
  new : Nat → Map
  put : Map → JString → HeaderPair → Option Map
  get : Map → JString → Option HeaderPair
  size : Map → Nat
  /-- The number of keys that fit without a reallocation. -/
  requested : Map → Nat
  size_new : ∀ n, size (new n) = 0
  requested_new : ∀ n, requested (new n) = n
  get_new : ∀ n key, get (new n) key = none
  put_absent : ∀ m key value, get m key = none → size m < requested m →
    ∃ m', put m key value = some m' ∧ size m' = size m + 1 ∧ requested m' = requested m ∧
      ∀ k, (equals key k = true → lower key = lower k) →
        get m' k = if equals key k then some value else get m k

section HeaderMap
variable {equals : JString → JString → Bool} (H : HdrMap equals)

/-- `Arrays.copyOfRange`. -/
def copyOfRange (array : List (Option JString)) (start stop : Nat) :
    Option (List (Option JString)) :=
  if array.length < start ∨ stop < start then none
  else
    let copied := (array.drop start).take (stop - start)
    some (copied ++ List.replicate (stop - start - copied.length) none)

/-- The pair `HeaderMap.append` makes of the window `[start, stop)`. -/
def pairOf (key : JString) (array : List (Option JString)) (start stop : Nat) :
    Option HeaderPair :=
  let length : Int := stop - start
  if length = 1 then
    array[start]?.map fun value => ⟨key, .string value, 0, 1⟩
  else if 80 < array.length then
    (copyOfRange array start stop).map fun copy => ⟨key, .array copy, 0, length⟩
  else some ⟨key, .array array, start, stop⟩

/-- `HeaderMap.append` of a window; `none` if it throws. -/
def append (m : H.Map) (key : JString) (array : List (Option JString)) (start stop : Nat) :
    Option H.Map :=
  (pairOf key array start stop).bind (H.put m key)

/-- The inner loop: the first index from `j` on that is `null` or behind the array. -/
def groupEnd (array : List (Option JString)) (j : Nat) : Nat :=
  j + ((array.drop j).takeWhile (·.isSome)).length

/-- The loop of `getHeaderFields` from index `i` on. -/
def decode (array : List (Option JString)) : Nat → Nat → H.Map → Option H.Map
  | 0, _, _ => none
  | fuel + 1, i, m =>
      match array[i]? with
      | none => some m
      | some none => some m
      | some (some headerName) =>
          let j := groupEnd array (i + 2)
          (append H m headerName array (i + 1) j).bind (decode array fuel (j + 1))

/-- What `getHeaderFields` returns. -/
inductive HeaderFields
  | emptyMap
  | headerMap (m : H.Map)

/-- `CurlConnection.getHeaderFields`, after `assertConnected`; `headerMap` is the
map kept from an earlier call. -/
def getHeaderFields (headerMap : Option H.Map) (cachedHeaders : Option (List (Option JString))) :
    Option (HeaderFields H) :=
  match headerMap with
  | some m => some (.headerMap m)
  | none =>
      match cachedHeaders with
      | none => some .emptyMap
      | some [] => some .emptyMap
      | some array =>
          (decode H array (array.length + 1) 0 (H.new array.length)).map .headerMap

end HeaderMap

/-! ## Texts that are equal but for their case -/

theorem CaseTables.equalsIgnoreCase_refl (tables : CaseTables) :
    ∀ a : JString, tables.equalsIgnoreCase a a = true
  | [] => rfl
  | _ :: as => by simp [equalsIgnoreCase, tables.equalsIgnoreCase_refl as]

theorem CaseTables.equalsIgnoreCase_comm (tables : CaseTables) :
    ∀ a b : JString, tables.equalsIgnoreCase a b = tables.equalsIgnoreCase b a
  | [], [] => rfl
  | [], _ :: _ => rfl
  | _ :: _, [] => rfl
  | a :: as, b :: bs => by
      rw [equalsIgnoreCase, equalsIgnoreCase, tables.equalsIgnoreCase_comm as bs,
        BEq.comm (a := a), BEq.comm (a := tables.toUpperCase a),
        BEq.comm (a := tables.toLowerCase (tables.toUpperCase a))]

/-- What `equalsIgnoreCase` compares. -/
def CaseTables.fold (tables : CaseTables) (c : UInt16) : UInt16 :=
  tables.toLowerCase (tables.toUpperCase c)

theorem CaseTables.equalsIgnoreCase_eq (tables : CaseTables) :
    ∀ a b : JString, tables.equalsIgnoreCase a b = (a.map tables.fold == b.map tables.fold)
  | [], [] => rfl
  | [], _ :: _ => rfl
  | _ :: _, [] => rfl
  | a :: as, b :: bs => by
      rw [equalsIgnoreCase, tables.equalsIgnoreCase_eq as bs, List.map_cons, List.map_cons,
        List.cons_beq_cons]
      congr 1
      -- characters that are equal, or equal in upper case, are equal when folded
      by_cases hupper : tables.toUpperCase a = tables.toUpperCase b
      · simp [fold, hupper]
      · have hne : a ≠ b := fun h => hupper (congrArg _ h)
        simp [fold, hupper, hne]

theorem CaseTables.equalsIgnoreCase_trans (tables : CaseTables) (a b c : JString)
    (hab : tables.equalsIgnoreCase a b = true) (hbc : tables.equalsIgnoreCase b c = true) :
    tables.equalsIgnoreCase a c = true := by
  rw [tables.equalsIgnoreCase_eq, beq_iff_eq] at *
  exact hab.trans hbc

/-! ## One group -/

/-- The pair yields exactly the values, at the indices from `0` on. -/
structure Yields (pair : HeaderPair) (values : List JString) : Prop where
  size_eq : pair.size = values.length
  get_eq : ∀ i (hi : i < values.length), pair.get i = some (some values[i])

section Window
variable {array : List (Option JString)} {start : Nat} {values : List JString}
  {rest : List (Option JString)}

/-- The elements of a window. -/
theorem getElem?_window (harray : array.drop start = values.map some ++ rest) {i : Nat}
    (hi : i < values.length) : array[start + i]? = some (some values[i]) := by
  rw [← List.getElem?_drop, harray, List.getElem?_append_left (by simpa using hi)]
  simp [hi]

/-- A window of non-null elements becomes a pair that yields them. -/
theorem exists_pairOf (key : JString) (hne : values ≠ [])
    (harray : array.drop start = values.map some ++ rest) :
    ∃ pair, pairOf key array start (start + values.length) = some pair ∧ pair.key = key ∧
      Yields pair values := by
  have hpos := List.length_pos_of_ne_nil hne
  have hlength : ((start + values.length : Nat) : Int) - start = values.length := by omega
  unfold pairOf
  simp only [hlength]
  by_cases hone : values.length = 1
  · have hfirst := getElem?_window harray hpos
    rw [Nat.add_zero] at hfirst
    refine ⟨⟨key, .string (some values[0]), 0, 1⟩, by simp [hone, hfirst], rfl, ?_, ?_⟩
    · simp [HeaderPair.size, hone]
    · intro i hi
      have hi0 : i = 0 := by omega
      subst hi0
      simp [HeaderPair.get]
  · rw [if_neg (by omega)]
    have hget : ∀ i (hi : i < values.length), ¬ ((i : Int) ≥ values.length) := by omega
    by_cases hlong : 80 < array.length
    · have hle : start ≤ array.length := by
        apply Classical.byContradiction
        intro hgt
        rw [List.drop_eq_nil_of_le (by omega)] at harray
        simp_all
      have hcopy : copyOfRange array start (start + values.length) = some (values.map some) := by
        simp [copyOfRange, harray, Nat.not_lt.mpr hle]
      refine ⟨⟨key, .array (values.map some), 0, values.length⟩, by simp [hlong, hcopy], rfl, ?_,
        ?_⟩
      · simp [HeaderPair.size]
      · intro i hi
        simp [HeaderPair.get, hget i hi, hi]
    · refine ⟨⟨key, .array array, start, (start + values.length : Nat)⟩, by simp [hlong], rfl, ?_,
        ?_⟩
      · simp only [HeaderPair.size]
        omega
      · intro i hi
        have hstop : ¬ ((i : Int) ≥ (start + values.length : Nat)) := by omega
        have hindex : ((start : Int) + i).toNat = start + i := by omega
        simp only [HeaderPair.get, hstop, if_false, hindex]
        rw [if_neg (by omega)]
        exact getElem?_window harray hi

end Window

/-! ## The whole array -/

section Decode
variable {equals : JString → JString → Bool} {H : HdrMap equals}

/-- The map holds the groups, each under its name, and no other key. -/
structure Holds (H : HdrMap equals) (m : H.Map) (groups : List (JString × List JString)) :
    Prop where
  size_eq : H.size m = groups.length
  get_group : ∀ g ∈ groups, ∃ pair, H.get m g.1 = some pair ∧ Yields pair g.2
  get_other : ∀ key, (∀ g ∈ groups, equals g.1 key = false) → H.get m key = none

theorem Holds.new (n : Nat) : Holds H (H.new n) [] where
  size_eq := H.size_new n
  get_group := by simp
  get_other := fun key _ => H.get_new n key

/-- Putting a group under a name that differs from all others. -/
theorem Holds.put {m : H.Map} {groups : List (JString × List JString)}
    {g : JString × List JString} {pair : HeaderPair} (h : Holds H m groups)
    (hrefl : ∀ a, equals a a = true) (hcomm : ∀ a b, equals a b = equals b a)
    (hnew : ∀ x ∈ groups, equals x.1 g.1 = false) (hroom : groups.length < H.requested m)
    (hpair : Yields pair g.2) :
    ∃ m', H.put m g.1 pair = some m' ∧ H.requested m' = H.requested m ∧
      Holds H m' (groups ++ [g]) := by
  obtain ⟨m', hput, hsize, hrequested, hget⟩ :=
    H.put_absent m g.1 pair (h.get_other g.1 hnew) (by rw [h.size_eq]; exact hroom)
  refine ⟨m', hput, hrequested, ?_, ?_, ?_⟩
  · rw [hsize, h.size_eq, List.length_append, List.length_singleton]
  · intro x hx
    rcases List.mem_append.mp hx with hx | hx
    · obtain ⟨px, hpx, hyields⟩ := h.get_group x hx
      have hother : ¬ equals g.1 x.1 = true := by
        rw [hcomm, hnew x hx]
        decide
      refine ⟨px, ?_, hyields⟩
      rw [hget x.1 fun hmatch => absurd hmatch hother, if_neg hother, hpx]
    · rw [List.mem_singleton.mp hx]
      exact ⟨pair, by rw [hget g.1 fun _ => rfl, if_pos (hrefl _)], hpair⟩
  · intro key hkey
    have hother : ¬ equals g.1 key = true := by simp [hkey g (by simp)]
    rw [hget key fun hmatch => absurd hmatch hother, if_neg hother]
    exact h.get_other key fun x hx => hkey x (by simp [hx])

/-- The group at the head of what is left is appended under its name, and what is
left after it starts behind the separator. -/
theorem decode_group {array : List (Option JString)} {i : Nat} {name : JString}
    {values : List JString} {rest : List (Option JString)} (hne : values ≠ [])
    (harray : array.drop i = some name :: (values.map some ++ rest))
    (hrest : rest = [] ∨ ∃ tail, rest = none :: tail) :
    array[i]? = some (some name) ∧ groupEnd array (i + 2) = i + 1 + values.length ∧
      array.drop (i + 1) = values.map some ++ rest := by
  have hfirst : array[i]? = some (some name) := by
    rw [← Nat.add_zero i, ← List.getElem?_drop, harray]
    rfl
  have hdrop : array.drop (i + 1) = values.map some ++ rest := by
    rw [← List.drop_drop, harray]
    rfl
  refine ⟨hfirst, ?_, hdrop⟩
  cases values with
  | nil => exact absurd rfl hne
  | cons v values =>
    have htail : array.drop (i + 2) = values.map some ++ rest := by
      rw [show i + 2 = i + 1 + 1 from rfl, ← List.drop_drop, hdrop]
      rfl
    have htake : ((values.map some ++ rest).takeWhile (·.isSome)).length = values.length := by
      rw [List.takeWhile_append_of_pos (by simp)]
      rcases hrest with rfl | ⟨tail, rfl⟩ <;> simp
    rw [groupEnd, htail, htake, List.length_cons]
    omega

/-- The first group of a layout, and what follows it. -/
theorem layout_cons (g : JString × List JString) (groups : List (JString × List JString)) :
    ∃ rest, layout (g :: groups) = some g.1 :: (g.2.map some ++ rest) ∧
      (rest = [] ∨ ∃ tail, rest = none :: tail) ∧ rest.drop 1 = layout groups := by
  cases groups with
  | nil => exact ⟨[], by simp [layout], Or.inl rfl, rfl⟩
  | cons g' groups =>
    exact ⟨none :: layout (g' :: groups), by simp [layout], Or.inr ⟨_, rfl⟩, rfl⟩

/-- **Decoding a layout** adds its groups to the map, one after another, and keeps whatever
holds of the groups that are there. -/
theorem decode_layout {P : H.Map → List (JString × List JString) → Prop}
    (hput : ∀ {m done g pair}, P m done → (∀ x ∈ done, equals x.1 g.1 = false) →
      done.length < H.requested m → pair.key = g.1 → Yields pair g.2 →
        ∃ m', H.put m g.1 pair = some m' ∧ H.requested m' = H.requested m ∧ P m' (done ++ [g]))
    {array : List (Option JString)} :
    ∀ (groups done : List (JString × List JString)) (m : H.Map) (i fuel : Nat),
      array.drop i = layout groups → groups.length < fuel → (∀ g ∈ groups, g.2 ≠ []) →
      P m done → (done ++ groups).Pairwise (fun a b => equals a.1 b.1 = false) →
      (done ++ groups).length ≤ H.requested m →
      ∃ m', decode H array fuel i m = some m' ∧ P m' (done ++ groups)
  | _, _, _, _, 0, _, hfuel, _, _, _, _ => absurd hfuel (Nat.not_lt_zero _)
  | [], done, m, i, fuel + 1, harray, _, _, h, _, _ => by
      have hnone : array[i]? = none := by
        rw [← Nat.add_zero i, ← List.getElem?_drop, harray]
        rfl
      exact ⟨m, by simp [decode, hnone], by simpa using h⟩
  | g :: groups, done, m, i, fuel + 1, harray, hfuel, hne, h, hdistinct, hroom => by
      obtain ⟨rest, hlayout, hrest, htail⟩ := layout_cons g groups
      obtain ⟨hname, hend, hdrop⟩ :=
        decode_group (hne g List.mem_cons_self) (harray.trans hlayout) hrest
      obtain ⟨pair, hpair, hkey, hyields⟩ := exists_pairOf g.1 (hne g List.mem_cons_self) hdrop
      have hbefore : ∀ x ∈ done, equals x.1 g.1 = false := fun x hx =>
        (List.pairwise_append.mp hdistinct).2.2 x hx g List.mem_cons_self
      obtain ⟨m', hadded, hrequested, h'⟩ := hput h hbefore
        (by rw [List.length_append, List.length_cons] at hroom; omega) hkey hyields
      have hnext : array.drop (i + 1 + g.2.length + 1) = layout groups := by
        rw [← htail, ← List.drop_drop, ← List.drop_drop, hdrop]
        simp
      rw [List.append_cons] at hdistinct hroom
      obtain ⟨m'', hdecode, h''⟩ := decode_layout hput groups (done ++ [g]) m'
        (i + 1 + g.2.length + 1) fuel hnext (by simpa using hfuel)
        (fun x hx => hne x (List.mem_cons_of_mem _ hx)) h' hdistinct (by rw [hrequested]; exact hroom)
      refine ⟨m'', ?_, by rw [List.append_cons]; exact h''⟩
      simp only [decode, hname, hend, append, hpair, Option.bind_some, hadded]
      exact hdecode

end Decode

/-- **The round trip of the header map.**  For a store of entries with their rings
and names that differ from each other under the comparison of the map, with the
allocations succeeding: the array is allocated with the length
`size * 3 + (headerPairCount - 1 - size) - 1`, written inside its bounds only and
laid out in groups; and decoding it gives a map with one key for each entry,
whose list has the values of the ring of the entry, in their order. -/
theorem header_fields_round_trip {ctrl : CurlData} {rings : List (List Nat)}
    (h : GroupedStore ctrl rings) (platform : Platform) (tables : CaseTables)
    (H : HdrMap tables.equalsIgnoreCase) {alloc : ArrayAlloc} (hok : alloc.Succeeds)
    (hnames : (GroupedStore.groups ctrl platform rings).Pairwise
      fun a b => tables.equalsIgnoreCase a.1 b.1 = false) :
    ∃ array written m,
      ctrl.getResponseHeaders platform alloc = some ⟨some array, written, ctrl.env⟩ ∧
      (array.length : Int) =
        ctrl.headers.size * 3 + (ctrl.headerPairCount - 1 - ctrl.headers.size) - 1 ∧
      (∀ i ∈ written, i < array.length) ∧
      array = layout (GroupedStore.groups ctrl platform rings) ∧
      getHeaderFields H none (some array) = some (.headerMap m) ∧
      H.size m = ctrl.headers.entries.length ∧
      ∀ g ∈ GroupedStore.groups ctrl platform rings,
        ∃ pair, H.get m g.1 = some pair ∧ pair.size = g.2.length ∧
          ∀ i (hi : i < g.2.length), pair.get i = some (some g.2[i]) := by
  obtain ⟨written, hresult, hwritten⟩ := h.getResponseHeaders_eq platform hok
  obtain ⟨hlength, hroom, -⟩ := h.length_layout_groups platform
  have hcount := h.length_groups platform
  have hne := h.groups_ne_nil platform
  have hvalues := h.values_ne_nil platform
  generalize GroupedStore.groups ctrl platform rings = groups at *
  obtain ⟨m, hdecode, hm⟩ := decode_layout (P := Holds H)
    (fun h hnew hroom _ hpair => h.put tables.equalsIgnoreCase_refl tables.equalsIgnoreCase_comm hnew
      hroom hpair) groups [] (H.new (layout groups).length) 0 ((layout groups).length + 1) rfl
    (by omega) hvalues (Holds.new _) hnames (by rw [H.requested_new, List.nil_append]; omega)
  refine ⟨layout groups, written, m, hresult, hlength, hwritten, rfl, ?_, ?_, ?_⟩
  · have hlayout : layout groups ≠ [] := by
      obtain ⟨g, gs, rfl⟩ := List.exists_cons_of_ne_nil hne
      obtain ⟨rest, hrest, -⟩ := layout_cons g gs
      rw [hrest]
      exact List.cons_ne_nil _ _
    obtain ⟨x, xs, hx⟩ := List.exists_cons_of_ne_nil hlayout
    rw [hx] at hdecode ⊢
    simp only [getHeaderFields, hdecode, Option.map_some]
  · rw [hm.size_eq, List.nil_append, hcount]
  · intro g hg
    obtain ⟨pair, hget, hyields⟩ := hm.get_group g (by simpa using hg)
    exact ⟨pair, hget, hyields.size_eq, hyields.get_eq⟩

/-- A map kept as a list of its keys and values. -/
def listMap (equals : JString → JString → Bool) : HdrMap equals where
  Map := Nat × List (JString × HeaderPair)
  new n := (n, [])
  put m key value :=
    if m.2.any fun e => equals e.1 key then
      some (m.1, m.2.map fun e => if equals e.1 key then (e.1, value) else e)
    else if m.2.length < m.1 then some (m.1, (key, value) :: m.2)
    else none
  get m key := (m.2.find? fun e => equals e.1 key).map (·.2)
  size m := m.2.length
  requested m := m.1
  size_new _ := rfl
  requested_new _ := rfl
  get_new _ _ := rfl
  put_absent m key value hget hroom := by
    have hnone : (m.2.any fun e => equals e.1 key) = false := by
      simpa [List.find?_eq_none] using hget
    refine ⟨(m.1, (key, value) :: m.2), by simp [hnone, hroom], rfl, rfl, fun k _ => ?_⟩
    by_cases hk : equals key k = true <;> simp [hk]

/-- A response with the values `1` and `2` under `a` and `3` under `b`. -/
def groupedCtrl : CurlData := nativeCreate.receive
  [.ofBytes (ascii "HTTP/1.1 200 OK\r\n"), .ofBytes (ascii "a:1\r\n"), .ofBytes (ascii "a:2\r\n"),
    .ofBytes (ascii "b:3\r\n")]

theorem groupedStore_groupedCtrl : GroupedStore groupedCtrl [[3], [1, 2]] where
  size_eq := by decide
  nonempty := fun h => absurd (congrArg List.length h) (by decide)
  ring := by
    have hvalues : groupedCtrl.headers.entries.map (·.value) = [3, 2] := by decide
    have hrings : List.Forall₂ (fun value blocks => IsRing groupedCtrl.refOf blocks value)
        (groupedCtrl.headers.entries.map (·.value)) [[3], [1, 2]] := by
      rw [hvalues]
      exact .cons ⟨by decide, by decide, rfl, by decide⟩
        (.cons ⟨by decide, by decide, rfl, by decide⟩ .nil)
    exact List.forall₂_map_left_iff.mp hrings
  count := by decide
  count_lt := by decide

/-- The array of the response, and the values found in the map made from it. -/
theorem header_fields_groupedCtrl :
    let tables : CaseTables := ⟨fun c => if 97 ≤ c ∧ c ≤ 122 then c - 32 else c,
      fun c => if 65 ≤ c ∧ c ≤ 90 then c + 32 else c⟩
    let H := listMap tables.equalsIgnoreCase
    let alloc : ArrayAlloc := ⟨true, true, true, fun _ => true⟩
    ∃ array written m, groupedCtrl.getResponseHeaders latinPlatform alloc =
        some ⟨some array, written, groupedCtrl.env⟩ ∧
      array = [some [98], some [51], none, some [97], some [49], some [50]] ∧
      getHeaderFields H none (some array) = some (.headerMap m) ∧ H.size m = 2 := by
  intro tables H alloc
  obtain ⟨array, written, m, hresult, -, -, harray, hfields, hsize, -⟩ :=
    header_fields_round_trip groupedStore_groupedCtrl latinPlatform tables H
      (show alloc.Succeeds from ⟨rfl, rfl, rfl, fun _ => rfl⟩) (by decide)
  refine ⟨array, written, m, hresult, harray.trans (by decide), hfields, ?_⟩
  rw [hsize]
  decide

end Chttpc
