import Chttpc.HeaderMap
import Chttpc.HeaderMerged
import Mathlib.Algebra.BigOperators.Group.List.Lemmas

/-!
# What two handles answer

Everything a handle answers about the headers is determined by the ledger of the lines that
have arrived since the last clearing: the name and the values of an entry by its distance
(`groupAt`), and the entries there are by the owners of the lines.  So handles that are
alike answer alike.

The scan of the buckets is the one thing that the ledger does not determine, if the tables
have different sizes.  It is the order of the groups in the array that goes to Java, and
the map made from it does not depend on that order as long as the names differ.
-/

namespace Chttpc
open Hashmap CircularList

/-! ## Names and values by their distance -/

/-- The values entered under a name. -/
def valuesAt (ledger : List Entered) (distance : Nat) : List (List UInt8) :=
  (ledger.filter (·.owner == distance)).map (·.line.value)

/-- The name at a distance and its values, as they are to stand in the array. -/
def groupAt (platform : Platform) (ledger : List Entered) (distance : Nat) :
    JString × List JString :=
  (((keyAt ledger distance).getD []).map platform.jchar,
    (valuesAt ledger distance).map (·.map platform.jchar))

section Ledger
variable {o o' : Observed} {platform : Platform}

/-- The texts of the ring of an entry. -/
theorem Rings.valuesAt_entry (h : Rings o) {e : Entry CString Nat}
    (he : e ∈ o.ctrl.headers.entries) :
    (o.valuesOf e.key.addr).map o.ctrl.valueText =
      (valuesAt o.ledger (e.key.addr - o.since)).map some := by
  have hkey := (h.key_since e he).1
  have hfilter : o.ledger.filter (·.owner == e.key.addr - o.since) =
      (o.accepted.filter (·.owner == e.key.addr)).map o.entered := by
    rw [Observed.ledger, List.filter_map]
    congr 1
    refine List.filter_congr fun a ha => ?_
    have howner := h.owner_accepted ha
    simp only [Function.comp, Observed.entered, beq_eq_beq]
    omega
  rw [valuesAt, hfilter, Observed.valuesOf, List.map_map, List.map_map, List.map_map]
  refine List.map_congr_left fun a ha => ?_
  exact h.text a (List.mem_of_mem_filter ha)

theorem Rings.groupOf_entry (h : Rings o) (platform : Platform) {e : Entry CString Nat}
    (he : e ∈ o.ctrl.headers.entries) :
    groupOf platform o.ctrl e (o.valuesOf e.key.addr) =
      groupAt platform o.ledger (e.key.addr - o.since) := by
  have hvalues : (o.valuesOf e.key.addr).map (valueString platform o.ctrl) =
      ((o.valuesOf e.key.addr).map o.ctrl.valueText).map fun text =>
        (text.getD []).map platform.jchar := by
    rw [List.map_map]
    rfl
  rw [groupOf, groupAt, h.keyAt_entry he, hvalues, h.valuesAt_entry he, List.map_map]
  rfl

/-- The text of the value that an entry holds. -/
theorem Rings.valueText_entry (h : Rings o) {e : Entry CString Nat}
    (he : e ∈ o.ctrl.headers.entries) :
    o.ctrl.valueText e.value = (valuesAt o.ledger (e.key.addr - o.since)).getLast? := by
  have hlast := congrArg List.getLast? (h.valuesAt_entry he)
  rw [List.getLast?_map, List.getLast?_map, (h.ring e he).newest, Option.map_some] at hlast
  obtain ⟨text, htext, hsome⟩ := Option.map_eq_some_iff.mp hlast.symm
  rw [htext, ← hsome]

/-! ## The entries there are -/

theorem Rings.mem_names (h : Rings o) {d : Nat} :
    d ∈ o.names ↔ ∃ x ∈ o.ledger, x.owner = d := by
  unfold Observed.names Observed.ledger
  constructor
  · intro hd
    obtain ⟨e, he, rfl⟩ := List.mem_map.mp hd
    obtain ⟨a, ha, howner, -⟩ := Rings.mem_valuesOf.mp (h.ring e he).last_mem
    exact ⟨o.entered a, List.mem_map_of_mem ha, congrArg (· - o.since) howner⟩
  · rintro ⟨x, hx, rfl⟩
    obtain ⟨a, ha, rfl⟩ := List.mem_map.mp hx
    obtain ⟨e, he, haddr, -⟩ := h.owned a ha
    exact List.mem_map.mpr ⟨e, he, congrArg (· - o.since) haddr⟩

theorem Rings.names_nodup (h : Rings o) : o.names.Nodup := by
  have hkeys := h.keys
  rw [Observed.names, show (fun e : Entry CString Nat => e.key.addr - o.since) =
    (· - o.since) ∘ (fun e : Entry CString Nat => e.key.addr) from rfl, ← List.map_map]
  refine List.Nodup.map_on (fun x hx y hy hxy => ?_) hkeys
  obtain ⟨e, he, rfl⟩ := List.mem_map.mp hx
  obtain ⟨e', he', rfl⟩ := List.mem_map.mp hy
  have h1 := (h.key_since e he).1
  have h2 := (h.key_since e' he').1
  omega

/-- Handles that are alike have corresponding entries. -/
theorem Alike.names_perm (h : Alike o o') (ho : Rings o) (ho' : Rings o') :
    o.names.Perm o'.names := by
  refine (List.perm_ext_iff_of_nodup ho.names_nodup ho'.names_nodup).mpr fun d => ?_
  rw [ho.mem_names, ho'.mem_names, h.ledger]

/-- With tables of one size, the scans correspond as well. -/
theorem Chained.names_eq (h : Chained o o') : o.names = o'.names := by
  have hentries := h.table.entries
  unfold Observed.names
  generalize o.ctrl.headers.entries = entries, o'.ctrl.headers.entries = entries' at hentries
  induction hentries with
  | nil => rfl
  | @cons e e' entries entries' hr _ ih => rw [List.map_cons, List.map_cons, hr.distance, ih]

/-- The groups of the array, in the order of the scan. -/
theorem Rings.groups_eq (h : Rings o) (platform : Platform) :
    GroupedStore.groups o.ctrl platform
        (o.ctrl.headers.entries.map fun e => o.valuesOf e.key.addr) =
      o.names.map (groupAt platform o.ledger) := by
  rw [GroupedStore.groups, List.zipWith_map_right, List.zipWith_self, Observed.names,
    List.map_map]
  exact List.map_congr_left fun e he => h.groupOf_entry platform he

/-- Every accepted line is in one ring. -/
theorem Rings.sum_rings (h : Rings o) :
    ((o.ctrl.headers.entries.map fun e => o.valuesOf e.key.addr).map List.length).sum =
      o.accepted.length := by
  let owners := o.accepted.map (·.owner)
  have hperm : (o.ctrl.headers.entries.map (·.key.addr)).Perm owners.dedup := by
    refine (List.perm_ext_iff_of_nodup h.keys (List.nodup_dedup _)).mpr fun addr => ?_
    rw [List.mem_dedup]
    constructor
    · intro haddr
      obtain ⟨e, he, rfl⟩ := List.mem_map.mp haddr
      obtain ⟨a, ha, howner, -⟩ := Rings.mem_valuesOf.mp (h.ring e he).last_mem
      exact List.mem_map.mpr ⟨a, ha, howner⟩
    · intro hmem
      obtain ⟨a, ha, rfl⟩ := List.mem_map.mp hmem
      obtain ⟨e, he, haddr, -⟩ := h.owned a ha
      exact List.mem_map.mpr ⟨e, he, haddr⟩
  have hlength : ∀ addr, (o.valuesOf addr).length = owners.count addr := by
    intro addr
    rw [Observed.valuesOf, List.length_map, List.count_eq_countP, List.countP_map,
      List.countP_eq_length_filter]
    rfl
  calc ((o.ctrl.headers.entries.map fun e => o.valuesOf e.key.addr).map List.length).sum
      = ((o.ctrl.headers.entries.map (·.key.addr)).map fun addr => owners.count addr).sum := by
        rw [List.map_map, List.map_map]
        exact congrArg List.sum (List.map_congr_left fun e _ => hlength e.key.addr)
    _ = (owners.dedup.map fun addr => owners.count addr).sum :=
        (hperm.map fun addr => owners.count addr).sum_eq
    _ = owners.length := List.sum_map_count_dedup_eq_length owners
    _ = o.accepted.length := List.length_map _

end Ledger

/-! ## Single headers -/

section Lookup
variable {o o' : Observed}

theorem Alike.getSpecialHeader (h : Alike o o') {n : Int} (hn : 0 ≤ n) :
    o.ctrl.getSpecialHeader n = o'.ctrl.getSpecialHeader n := by
  show (o.ctrl.specialSlot n).bind o.ctrl.slotText = (o'.ctrl.specialSlot n).bind o'.ctrl.slotText
  unfold CurlData.specialSlot
  rw [← h.count]
  split
  · rfl
  split
  · exact h.slots _ (by omega)
  · exact h.slots _ (by omega)

/-- A name on the stack lies in front of the names of all entries. -/
theorem Rings.addr_ne_zero (h : Rings o) {key : CString} (hkey : key.addr = 0) :
    ∀ e ∈ o.ctrl.headers.entries, e.key.addr ≠ key.addr := by
  intro e he
  have hsince := (h.key_since e he).1
  omega

theorem Chained.lookup (h : Chained o o') {key : CString} (hkey : key.addr = 0) :
    (o.ctrl.headers.hashmapGet key).bind o.ctrl.valueText =
      (o'.ctrl.headers.hashmapGet key).bind o'.ctrl.valueText := by
  have htest : SameTest (Corresponds o.since o'.since) o.ctrl.headers o'.ctrl.headers key key :=
    h.sameTest rfl rfl (h.stored.addr_ne_zero hkey) (h.stored'.addr_ne_zero hkey)
  have hfind := h.table.find htest
  unfold Hashmap.hashmapGet
  generalize hleft : (o.ctrl.headers.chain (o.ctrl.headers.indexOf key)).find?
      (o.ctrl.headers.found key) = left,
    hright : (o'.ctrl.headers.chain (o'.ctrl.headers.indexOf key)).find?
      (o'.ctrl.headers.found key) = right at hfind ⊢
  cases hfind with
  | none => rfl
  | @some e e' hr =>
    have he := mem_entries_of_mem_chain (List.mem_of_find?_eq_some hleft)
    have he' := mem_entries_of_mem_chain (List.mem_of_find?_eq_some hright)
    rw [Option.map_some, Option.map_some, Option.bind_some, Option.bind_some,
      h.stored.valueText_entry he, h.stored'.valueText_entry he', h.ledger, hr.distance]

theorem Alike.symm (h : Alike o o') : Alike o' o :=
  ⟨h.seenHeaderEnd.symm, h.count.symm, h.length.symm,
    fun i hi => (h.slots i (by rw [h.count]; exact hi)).symm, h.ledger.symm⟩

/-- What a lookup finds in one handle it finds in the other. -/
theorem MergedTwins.lookup_some (h : MergedTwins o o') {key : CString} (hkey : key.addr = 0)
    {text : List UInt8}
    (hlookup : (o.ctrl.headers.hashmapGet key).bind o.ctrl.valueText = some text) :
    (o'.ctrl.headers.hashmapGet key).bind o'.ctrl.valueText = some text := by
  obtain ⟨value, hget, htext⟩ := Option.bind_eq_some_iff.mp hlookup
  obtain ⟨e, he, hfound, rfl⟩ := exists_of_hashmapGet hget
  -- the entry at the same distance in the other handle
  have hmem : e.key.addr - o.since ∈ o'.names :=
    (h.names_perm h.merged.toRings h.merged'.toRings).mem_iff.mp
      (List.mem_map.mpr ⟨e, he, rfl⟩)
  obtain ⟨e', he', hdistance⟩ := List.mem_map.mp hmem
  have hchars : e'.key.chars = e.key.chars := by
    have hname := h.merged'.keyAt_entry he'
    rw [hdistance, ← h.ledger, h.merged.keyAt_entry he] at hname
    exact (Option.some.inj hname).symm
  have hhash : e'.hash = e.hash := by
    rw [h.merged.wellFormed.hashed e he, h.merged'.wellFormed.hashed e' he']
    exact hashKey_eq h.merged'.comparesNames h.merged.comparesNames hchars
  rw [found_of_addr_ne h.merged.comparesNames (h.merged.addr_ne_zero hkey e he)] at hfound
  have hsame : o.ctrl.headers.hashKey key = o'.ctrl.headers.hashKey key :=
    hashKey_eq h.merged.comparesNames h.merged'.comparesNames rfl
  have hfound' : o'.ctrl.headers.found key e' = true := by
    rw [found_of_addr_ne h.merged'.comparesNames (h.merged'.addr_ne_zero hkey e' he'), hhash,
      hchars, ← hsame]
    exact hfound
  rw [Bool.and_eq_true, beq_iff_eq] at hfound
  -- which is the one that the lookup finds
  obtain ⟨e'', he'', hfound'', hget'⟩ := h.merged'.hashmapGet_of_found he'
    (hhash.trans (hfound.1.trans hsame)) hfound'
  rw [found_of_addr_ne h.merged'.comparesNames (h.merged'.addr_ne_zero hkey e'' he''),
    Bool.and_eq_true, beq_iff_eq] at hfound''
  have hone : e'' = e' := h.merged'.eq_of_hash he'' he'
    (hfound''.1.trans (hhash.trans (hfound.1.trans hsame)).symm)
  rw [hget', hone, Option.bind_some, h.merged'.valueText_entry he', hdistance, ← h.ledger,
    ← h.merged.valueText_entry he]
  exact htext

theorem MergedTwins.lookup (h : MergedTwins o o') {key : CString} (hkey : key.addr = 0) :
    (o.ctrl.headers.hashmapGet key).bind o.ctrl.valueText =
      (o'.ctrl.headers.hashmapGet key).bind o'.ctrl.valueText := by
  have hsymm : MergedTwins o' o := ⟨h.symm, h.merged', h.merged⟩
  exact Option.ext fun text => ⟨h.lookup_some hkey, hsymm.lookup_some hkey⟩

/-- Two handles that answer alike. -/
def Twins (o o' : Observed) : Prop := Chained o o' ∨ MergedTwins o o'

theorem Twins.alike (h : Twins o o') : Alike o o' := h.elim (·.toAlike) (·.toAlike)

theorem Twins.stored (h : Twins o o') : Stored o ∧ Stored o' :=
  h.elim (fun h => ⟨h.stored, h.stored'⟩) fun h => ⟨h.merged.toStored, h.merged'.toStored⟩

/-- **Two twins answer alike**, by name and by number. -/
theorem Twins.getHeader (h : Twins o o') (key : Option JString) (l : Int) (beyond : Nat → UInt8)
    (hl : key = none → 0 ≤ l) : o.ctrl.getHeader key l beyond = o'.ctrl.getHeader key l beyond := by
  unfold CurlData.getHeader
  rw [← h.alike.count]
  split
  · rfl
  cases key with
  | none => exact h.alike.getSpecialHeader (hl rfl)
  | some key =>
    have hkey : (CurlData.localKey key l beyond).addr = 0 := rfl
    exact h.elim (fun h => h.lookup hkey) fun h => h.lookup hkey

end Lookup

/-! ## The map made of an array -/

/-- A list of values, under the name it is filed under. -/
structure SameList (pair pair' : HeaderPair) : Prop where
  key : pair.key = pair'.key
  size : pair.size = pair'.size
  get : ∀ i, 0 ≤ i → i < pair.size → pair.get i = pair'.get i

/-- Maps with the same lists under the keys that are asked for. -/
inductive SameFields {equals : JString → JString → Bool} {H : HdrMap equals}
    (asked : JString → Prop) : HeaderFields H → HeaderFields H → Prop
  | emptyMap : SameFields asked .emptyMap .emptyMap
  | headerMap {m m' : H.Map} (size : H.size m = H.size m')
      (get : ∀ key, asked key → Option.Rel SameList (H.get m key) (H.get m' key)) :
      SameFields asked (.headerMap m) (.headerMap m')

/-- The key matches the name only if the two are the same up to `A`-`Z`. -/
def MatchesPlainly (equals : JString → JString → Bool) (name key : JString) : Prop :=
  equals name key = true → lower name = lower key

/-- A key that matches the names plainly finds the group with its name, or nothing. -/
structure Files {equals : JString → JString → Bool} (H : HdrMap equals) (m : H.Map)
    (groups : List (JString × List JString)) : Prop where
  size_eq : H.size m = groups.length
  get_eq : ∀ key, (∀ g ∈ groups, MatchesPlainly equals g.1 key) →
    (∃ g ∈ groups, equals g.1 key = true ∧
        ∃ pair, H.get m key = some pair ∧ pair.key = g.1 ∧ Yields pair g.2) ∨
      (∀ g ∈ groups, equals g.1 key = false) ∧ H.get m key = none

section Map
variable {equals : JString → JString → Bool} {H : HdrMap equals} {asked : JString → Prop}

theorem SameFields.refl (fields : HeaderFields H) : SameFields asked fields fields := by
  cases fields with
  | emptyMap => exact .emptyMap
  | headerMap m =>
    refine .headerMap rfl fun key _ => ?_
    cases H.get m key with
    | none => exact .none
    | some pair => exact .some ⟨rfl, rfl, fun _ _ _ => rfl⟩

theorem files_new (n : Nat) : Files H (H.new n) [] where
  size_eq := H.size_new n
  get_eq := fun key _ => .inr ⟨by simp, H.get_new n key⟩

theorem Files.put {m : H.Map} {groups : List (JString × List JString)}
    {g : JString × List JString} {pair : HeaderPair} (h : Files H m groups)
    (hnew : ∀ x ∈ groups, equals x.1 g.1 = false) (hroom : groups.length < H.requested m)
    (hkey : pair.key = g.1) (hpair : Yields pair g.2) :
    ∃ m', H.put m g.1 pair = some m' ∧ H.requested m' = H.requested m ∧
      Files H m' (groups ++ [g]) := by
  have habsent : H.get m g.1 = none := by
    have hplain : ∀ x ∈ groups, MatchesPlainly equals x.1 g.1 := fun x hx hequal =>
      Bool.noConfusion ((hnew x hx).symm.trans hequal)
    rcases h.get_eq g.1 hplain with ⟨x, hx, hequal, -⟩ | ⟨-, hnone⟩
    · rw [hnew x hx] at hequal
      cases hequal
    · exact hnone
  obtain ⟨m', hput, hsize, hrequested, hget⟩ :=
    H.put_absent m g.1 pair habsent (by rw [h.size_eq]; exact hroom)
  refine ⟨m', hput, hrequested, ?_, fun key hplain => ?_⟩
  · rw [hsize, h.size_eq, List.length_append, List.length_singleton]
  · rw [hget key (hplain g (by simp))]
    cases hequal : equals g.1 key with
    | true => exact .inl ⟨g, by simp, hequal, pair, by simp, hkey, hpair⟩
    | false =>
      rcases h.get_eq key fun x hx => hplain x (List.mem_append_left _ hx) with
        ⟨x, hx, hfound⟩ | ⟨hother, hnone⟩
      · exact .inl ⟨x, List.mem_append_left _ hx, by simpa using hfound⟩
      · refine .inr ⟨fun x hx => ?_, by simpa using hnone⟩
        rcases List.mem_append.mp hx with hx | hx
        · exact hother x hx
        · rw [List.mem_singleton.mp hx]
          exact hequal

/-- Maps that file the same groups, in whatever order, have the same lists. -/
theorem Files.sameFields (hcomm : ∀ a b, equals a b = equals b a)
    (htrans : ∀ a b c, equals a b = true → equals b c = true → equals a c = true) {m m' : H.Map}
    {groups groups' : List (JString × List JString)} (h : Files H m groups)
    (h' : Files H m' groups') (hperm : groups.Perm groups')
    (hdistinct : groups.Pairwise fun a b => equals a.1 b.1 = false)
    (hasked : ∀ key, asked key → ∀ g ∈ groups, MatchesPlainly equals g.1 key) :
    SameFields asked (.headerMap m : HeaderFields H) (.headerMap m') := by
  refine .headerMap (by rw [h.size_eq, h'.size_eq, hperm.length_eq]) fun key hkey => ?_
  have hplain := hasked key hkey
  have hplain' : ∀ g ∈ groups', MatchesPlainly equals g.1 key :=
    fun g hg => hplain g (hperm.mem_iff.mpr hg)
  rcases h.get_eq key hplain with ⟨g, hg, hequal, pair, hget, hkey, hpair⟩ | ⟨hother, hnone⟩
  · rcases h'.get_eq key hplain' with
      ⟨g', hg', hequal', pair', hget', hkey', hpair'⟩ | ⟨hother', -⟩
    · have hsame : g = g' := by
        by_contra hne
        have : Std.Symm fun a b : JString × List JString => equals a.1 b.1 = false :=
          ⟨fun a b hab => (hcomm b.1 a.1).trans hab⟩
        have hfalse : equals g.1 g'.1 = false :=
          hdistinct.forall hg (hperm.mem_iff.mpr hg') hne
        have htrue := htrans g.1 key g'.1 hequal ((hcomm _ _).trans hequal')
        rw [hfalse] at htrue
        cases htrue
      subst hsame
      rw [hget, hget']
      refine .some ⟨hkey.trans hkey'.symm, hpair.size_eq.trans hpair'.size_eq.symm, ?_⟩
      intro i h0 hlt
      rw [hpair.size_eq] at hlt
      obtain ⟨n, rfl⟩ := Int.eq_ofNat_of_zero_le h0
      exact (hpair.get_eq n (by omega)).trans (hpair'.get_eq n (by omega)).symm
    · rw [hother' g (hperm.mem_iff.mp hg)] at hequal
      cases hequal
  · rcases h'.get_eq key hplain' with ⟨g', hg', hequal', -⟩ | ⟨-, hnone'⟩
    · rw [hother g' (hperm.mem_iff.mpr hg')] at hequal'
      cases hequal'
    · rw [hnone, hnone']
      exact .none

/-- The map made of a layout of groups with names that differ. -/
theorem getHeaderFields_layout {groups : List (JString × List JString)} (hne : groups ≠ [])
    (hvalues : ∀ g ∈ groups, g.2 ≠ [])
    (hdistinct : groups.Pairwise fun a b => equals a.1 b.1 = false) :
    ∃ m, getHeaderFields H none (some (layout groups)) = some (.headerMap m) ∧
      Files H m groups := by
  have hroom : groups.length ≤ (layout groups).length := by
    have hlayout := length_layout hne
    have hlength := List.length_pos_of_ne_nil hne
    have hsum : (groups.map fun g => g.2.length + 2).sum =
        (groups.map fun g => g.2.length).sum + groups.length * 2 := by
      simp [List.sum_map_add]
    omega
  obtain ⟨m, hdecode, hm⟩ := decode_layout (P := Files H)
    (fun h hnew hroom hkey hpair => h.put hnew hroom hkey hpair) groups []
    (H.new (layout groups).length) 0 ((layout groups).length + 1) rfl (by omega) hvalues
    (files_new _) hdistinct (by rw [H.requested_new, List.nil_append]; exact hroom)
  refine ⟨m, ?_, hm⟩
  obtain ⟨g, gs, rfl⟩ := List.exists_cons_of_ne_nil hne
  obtain ⟨rest, hrest, -⟩ := layout_cons g gs
  rw [hrest] at hdecode ⊢
  simp only [getHeaderFields, hdecode, Option.map_some]

end Map

/-! ## An array that is too short -/

/-- The array has `length` elements, the next index is `pos`, the indices written so far
lie in front of `bound`, and an exception is pending if one of them is not in the array. -/
structure Ran (length pos bound : Nat) (w : HeaderWriter) : Prop where
  strArray : w.strArray.length = length
  hdrPos : w.hdrPos = pos
  le : bound ≤ pos
  env : w.env = if bound ≤ length then ⟨none⟩ else ⟨some .arrayIndexOutOfBounds⟩

section Ran
variable {alloc : ArrayAlloc} {ctrl : CurlData} {length pos bound : Nat}
  {w : HeaderWriter}

theorem Ran.put (platform : Platform) (h : Ran length pos bound w)
    (hok : alloc.string w.hdrPos = true) (text : List UInt8) :
    ∃ w', w.put platform alloc text = .ok w' ∧ Ran length (pos + 1) (pos + 1) w' := by
  refine ⟨w.setObjectArrayElement (text.map platform.jchar), ?_, ?_, ?_, Nat.le_refl _, ?_⟩
  · simp [HeaderWriter.put, Platform.headerToString, hok]
  · simp [HeaderWriter.setObjectArrayElement, h.strArray]
  · simp [HeaderWriter.setObjectArrayElement, h.hdrPos]
  · have hle := h.le
    simp only [HeaderWriter.setObjectArrayElement, h.strArray, h.hdrPos, h.env]
    by_cases hin : pos < length
    · rw [if_pos hin, if_pos (by omega), if_pos (by omega)]
    · rw [if_neg hin, if_neg (by omega : ¬ pos + 1 ≤ length)]
      split <;> rfl

theorem Ran.writeValues (ctrl : CurlData) (platform : Platform) (hok : alloc.Succeeds) :
    ∀ (blocks : List Nat) {w : HeaderWriter} {pos : Nat}, Ran length pos pos w →
      ∃ w', ctrl.writeValues platform alloc blocks w = .ok w' ∧
        Ran length (pos + blocks.length) (pos + blocks.length) w'
  | [], w, _, h => ⟨w, rfl, h⟩
  | block :: blocks, w, pos, h => by
      obtain ⟨w', hput, h'⟩ := h.put platform (hok.2.2.2 _)
        ((ctrl.valueText block).getD [])
      obtain ⟨w'', hrest, h''⟩ := Ran.writeValues ctrl platform hok blocks h'
      refine ⟨w'', by rw [CurlData.writeValues, hput]; exact hrest, ?_⟩
      rw [Nat.add_right_comm, Nat.add_assoc] at h''
      exact h''

/-- One entry, with the element left out behind it. -/
theorem Ran.writeEntry (platform : Platform) (hok : alloc.Succeeds)
    {entry : Entry CString Nat} {blocks : List Nat} (hring : ctrl.ringOf entry = some blocks)
    (h : Ran length pos bound w) :
    ∃ w', ctrl.writeEntry platform alloc entry w = .ok w' ∧
      Ran length (pos + (blocks.length + 2)) (pos + (blocks.length + 1)) w' := by
  obtain ⟨w', hput, h'⟩ := h.put platform (hok.2.2.2 _) entry.key.chars
  obtain ⟨w'', hvalues, h''⟩ := Ran.writeValues ctrl platform hok blocks h'
  refine ⟨{ w'' with hdrPos := w''.hdrPos + 1 }, ?_, h''.strArray, ?_, by omega, ?_⟩
  · simp only [CurlData.writeEntry, hput, hring, hvalues]
  · have hpos := h''.hdrPos
    show w''.hdrPos + 1 = _
    omega
  · have henv := h''.env
    rw [Nat.add_right_comm] at henv
    exact henv

/-- **The scan runs over the end of the array** if that is shorter than the groups and the
elements between them, and an exception is pending then. -/
theorem Ran.writeEntries (platform : Platform) (hok : alloc.Succeeds)
    {entries : List (Entry CString Nat)} {rings : List (List Nat)}
    (hrings : List.Forall₂ (fun e blocks => ctrl.ringOf e = some blocks) entries rings) :
    ∀ {w : HeaderWriter} {pos bound : Nat}, entries ≠ [] → Ran length pos bound w →
      ∃ w', ctrl.writeEntries platform alloc entries w = .ok w' ∧
        Ran length (pos + (rings.map fun blocks => blocks.length + 2).sum)
          (pos + (rings.map fun blocks => blocks.length + 2).sum - 1) w' := by
  induction hrings with
  | nil => exact fun hne => absurd rfl hne
  | @cons entry blocks entries rings hring hrings ih =>
    intro w pos bound _ h
    obtain ⟨w', hentry, h'⟩ := Ran.writeEntry platform hok hring h
    cases hrings with
    | nil =>
      refine ⟨w', by rw [CurlData.writeEntries, hentry]; rfl, ?_⟩
      simpa using h'
    | @cons e b entries rings he hrest =>
      obtain ⟨w'', hwrite, h''⟩ := ih (List.cons_ne_nil _ _) h'
      refine ⟨w'', by rw [CurlData.writeEntries, hentry]; exact hwrite, ?_⟩
      rw [List.map_cons, List.sum_cons, ← Nat.add_assoc]
      exact h''

end Ran

/-! ## All headers -/

/-- Two answers of `getResponseHeaders` that the caller cannot tell apart: an exception is
pending after both, or the maps made of the arrays have the same lists. -/
inductive SameArrays {equals : JString → JString → Bool} (H : HdrMap equals)
    (asked : JString → Prop) (r r' : CurlData.ArrayResult) : Prop
  | thrown (e : Throwable) (env : r.env = ⟨some e⟩) (env' : r'.env = ⟨some e⟩)
  | fields (env : r.env = ⟨none⟩) (env' : r'.env = ⟨none⟩)
      (maps : Option.Rel (SameFields asked) (getHeaderFields H none r.strArray)
        (getHeaderFields H none r'.strArray))

/-- The lines share an entry, or have names that differ in the map. -/
structure ToldApart (equals : JString → JString → Bool) (platform : Platform)
    (a b : HeaderLine) : Prop where
  merges : Merges a b
  differs : a.hash ≠ b.hash →
    equals (a.key.map platform.jchar) (b.key.map platform.jchar) = false

section Arrays
variable {o o' : Observed} {equals : JString → JString → Bool} {H : HdrMap equals}
  {asked : JString → Prop} {platform : Platform} {alloc : ArrayAlloc}

/-- The rings of the entries, in the order of the scan. -/
def Observed.rings (o : Observed) : List (List Nat) :=
  o.ctrl.headers.entries.map fun e => o.valuesOf e.key.addr

theorem Rings.forall₂_rings (h : Rings o) :
    List.Forall₂ (fun e blocks => IsRing o.ctrl.refOf blocks e.value) o.ctrl.headers.entries
      o.rings := by
  unfold Observed.rings
  rw [List.forall₂_map_right_iff, List.forall₂_same]
  exact h.ring

/-- One pair for each line and one for the status line make a grouped store. -/
theorem Stored.groupedStore (h : Stored o) (hne : o.ctrl.headers.entries ≠ [])
    (hcount : o.ctrl.headerPairCount = o.accepted.length + 1) : GroupedStore o.ctrl o.rings where
  size_eq := h.wellFormed.size_eq
  nonempty := hne
  ring := h.forall₂_rings
  count := by
    have hsum : (o.rings.map List.length).sum = o.accepted.length := h.sum_rings
    omega
  count_lt := h.count_lt

/-- The exception of a call that has fewer pairs counted than there are lines. -/
def shortArrayThrows (ctrl : CurlData) : Throwable :=
  if toInt32 ((ctrl.headers.size : Int) * 3 + (ctrl.headerPairCount - 1 - ctrl.headers.size) - 1)
      < 0 then .negativeArraySize
  else .arrayIndexOutOfBounds

theorem toInt32_le {n : Int} (h : 0 ≤ n) : toInt32 n ≤ n := by
  unfold toInt32
  rw [Int.bmod_def]
  split <;> omega

/-- With fewer pairs counted than there are lines, the array cannot be filled. -/
theorem Rings.getResponseHeaders_short (h : Rings o) (platform : Platform) (hok : alloc.Succeeds)
    (henv : o.ctrl.env = ⟨none⟩) (hne : o.ctrl.headers.entries ≠ [])
    (hcount : o.ctrl.headerPairCount ≤ o.accepted.length) :
    ∃ array written, o.ctrl.getResponseHeaders platform alloc =
      some ⟨array, written, ⟨some (shortArrayThrows o.ctrl)⟩⟩ := by
  have hpos := List.length_pos_of_ne_nil hne
  have hsize := h.wellFormed.size_eq
  unfold CurlData.getResponseHeaders shortArrayThrows
  rw [if_neg (by omega), if_neg (by simp [hok.1])]
  dsimp only
  have hcapacity : toInt32 ((o.ctrl.headers.size : Int) * 3 +
      (o.ctrl.headerPairCount - 1 - o.ctrl.headers.size) - 1) ≤
        2 * o.ctrl.headers.size + o.accepted.length - 2 := by
    refine Int.le_trans (toInt32_le ?_) ?_ <;> omega
  generalize toInt32 _ = capacity at hcapacity ⊢
  by_cases hnegative : capacity < 0
  · rw [if_pos hnegative, if_pos hnegative, henv]
    exact ⟨_, _, rfl⟩
  rw [if_neg hnegative, if_neg hnegative, if_neg (by simp [hok.2.1]),
    if_neg (by simp [hok.2.2.1]), henv]
  have hrings : List.Forall₂ (fun e blocks => o.ctrl.ringOf e = some blocks)
      o.ctrl.headers.entries o.rings := by
    refine h.forall₂_rings.imp fun e blocks hring => ?_
    obtain ⟨first, hfirst, hwalk⟩ := hring.walk_eq (CurlData.length_le_of_isRing hring)
    rw [CurlData.ringOf, hfirst, Option.bind_some, hwalk]
  have hstart : Ran capacity.toNat 0 0
      ⟨List.replicate capacity.toNat none, 0, [], ⟨none⟩⟩ :=
    ⟨List.length_replicate, rfl, Nat.le_refl _, by simp⟩
  obtain ⟨w, hwrite, hran⟩ := Ran.writeEntries platform hok hrings hne hstart
  have hlength : (o.rings.map fun blocks => blocks.length + 2).sum =
      o.accepted.length + o.ctrl.headers.entries.length * 2 := by
    have hsum : (o.rings.map List.length).sum = o.accepted.length := h.sum_rings
    have hrow : o.rings.length = o.ctrl.headers.entries.length := List.length_map _
    have hadd : (o.rings.map fun blocks => blocks.length + 2).sum =
        (o.rings.map List.length).sum + o.rings.length * 2 := by simp [List.sum_map_add]
    rw [hadd, hsum, hrow]
  have hover := hran.env
  rw [if_neg (by omega)] at hover
  simp only [hwrite, hover]
  exact ⟨_, _, rfl⟩

/-- **Two handles that are alike hand over arrays that the caller cannot tell apart**, if
the maps made of their groups have the same lists. -/
theorem Alike.arrays (h : Alike o o') (ho : Stored o) (ho' : Stored o')
    (hcount : o.ctrl.headerPairCount ≤ o.accepted.length + 1) (hok : alloc.Succeeds)
    (henv : o.ctrl.env = ⟨none⟩) (henv' : o'.ctrl.env = ⟨none⟩)
    (hmaps : o.ctrl.headers.entries ≠ [] → Option.Rel (SameFields asked)
      (getHeaderFields H none (some (layout (o.names.map (groupAt platform o.ledger)))))
      (getHeaderFields H none (some (layout (o'.names.map (groupAt platform o'.ledger)))))) :
    ∃ r r', o.ctrl.getResponseHeaders platform alloc = some r ∧
      o'.ctrl.getResponseHeaders platform alloc = some r' ∧ SameArrays H asked r r' := by
  have hnames := (h.names_perm ho.toRings ho'.toRings).length_eq
  rw [Observed.names, Observed.names, List.length_map, List.length_map] at hnames
  have haccepted := congrArg List.length h.ledger
  rw [Observed.ledger, Observed.ledger, List.length_map, List.length_map] at haccepted
  have hsize := ho.wellFormed.size_eq
  have hsize' := ho'.wellFormed.size_eq
  have hpairs := h.count
  by_cases hnil : o.ctrl.headers.entries = []
  · have hzero : o.ctrl.headers.size = 0 := by rw [hsize, hnil]; rfl
    have hzero' : o'.ctrl.headers.size = 0 := by rw [hsize', ← hnames, hnil]; rfl
    refine ⟨⟨none, [], o.ctrl.env⟩, ⟨none, [], o'.ctrl.env⟩, ?_, ?_, ?_⟩
    · rw [CurlData.getResponseHeaders, if_pos hzero]
    · rw [CurlData.getResponseHeaders, if_pos hzero']
    · exact .fields henv henv' (.some .emptyMap)
  have hnil' : o'.ctrl.headers.entries ≠ [] := by
    intro hnil'
    rw [hnil'] at hnames
    exact hnil (List.length_eq_zero_iff.mp hnames)
  by_cases hshort : o.ctrl.headerPairCount ≤ o.accepted.length
  · obtain ⟨array, written, hresult⟩ :=
      ho.getResponseHeaders_short platform hok henv hnil hshort
    obtain ⟨array', written', hresult'⟩ :=
      ho'.getResponseHeaders_short platform hok henv' hnil' (by omega)
    refine ⟨_, _, hresult, hresult', .thrown (shortArrayThrows o.ctrl) rfl ?_⟩
    unfold shortArrayThrows
    rw [hsize, hsize', hnames, hpairs]
  · obtain ⟨written, hresult, -⟩ :=
      (ho.groupedStore hnil (by omega)).getResponseHeaders_eq platform hok
    obtain ⟨written', hresult', -⟩ :=
      (ho'.groupedStore hnil' (by omega)).getResponseHeaders_eq platform hok
    refine ⟨_, _, hresult, hresult', .fields henv henv' ?_⟩
    have hgroups := ho.groups_eq platform
    have hgroups' := ho'.groups_eq platform
    unfold Observed.rings
    rw [hgroups, hgroups']
    exact hmaps hnil

/-- The groups of names that are told apart differ. -/
theorem Merged.groups_distinct (h : Merged o) (hcomm : ∀ a b, equals a b = equals b a)
    (hapart : (o.accepted.map (·.line)).Pairwise (ToldApart equals platform)) :
    (o.names.map (groupAt platform o.ledger)).Pairwise fun a b => equals a.1 b.1 = false := by
  have hdiffers : ∀ a ∈ o.accepted, ∀ b ∈ o.accepted, a.line.hash ≠ b.line.hash →
      equals (a.line.key.map platform.jchar) (b.line.key.map platform.jchar) = false := by
    have : Std.Symm fun a b : HeaderLine => a.hash ≠ b.hash →
        equals (a.key.map platform.jchar) (b.key.map platform.jchar) = false :=
      ⟨fun a b hab hne => (hcomm _ _).trans (hab hne.symm)⟩
    intro a ha b hb hne
    exact (hapart.imp fun hab => hab.differs).forall (List.mem_map_of_mem ha)
      (List.mem_map_of_mem hb) (fun he => hne (congrArg HeaderLine.hash he)) hne
  rw [Observed.names, List.map_map, List.pairwise_map]
  refine (List.pairwise_map.mp h.hashes).imp_of_mem fun {e e'} he he' hne => ?_
  obtain ⟨a, ha, hkey, hhash⟩ := h.entry_line he
  obtain ⟨b, hb, hkey', hhash'⟩ := h.entry_line he'
  have hfalse := hdiffers a ha b hb (by rw [← hhash, ← hhash']; exact hne)
  have hchars : e.key.chars = a.line.key := by rw [hkey]; rfl
  have hchars' : e'.key.chars = b.line.key := by rw [hkey']; rfl
  simp only [Function.comp, groupAt, h.keyAt_entry he, h.keyAt_entry he', Option.getD_some, hchars,
    hchars']
  exact hfalse

/-- The name of a group is that of a line that has been accepted. -/
theorem Rings.group_line (h : Rings o) {g : JString × List JString}
    (hg : g ∈ o.names.map (groupAt platform o.ledger)) :
    ∃ a ∈ o.accepted, g.1 = a.line.key.map platform.jchar := by
  rw [Observed.names, List.map_map] at hg
  obtain ⟨e, he, rfl⟩ := List.mem_map.mp hg
  obtain ⟨a, ha, hkey⟩ := h.key_line e he
  refine ⟨a, ha, ?_⟩
  have hchars : e.key.chars = a.line.key := by rw [hkey]; rfl
  simp only [Function.comp, groupAt, h.keyAt_entry he, Option.getD_some, hchars]

/-- **The maps made of the groups** of two handles have the same lists, if the names are told
apart. -/
theorem MergedTwins.sameFields (h : MergedTwins o o') (hcomm : ∀ a b, equals a b = equals b a)
    (htrans : ∀ a b c, equals a b = true → equals b c = true → equals a c = true)
    (hne : o.ctrl.headers.entries ≠ [])
    (hapart : (o.accepted.map (·.line)).Pairwise (ToldApart equals platform))
    (hasked : ∀ key, asked key → ∀ a ∈ o.accepted,
      MatchesPlainly equals (a.line.key.map platform.jchar) key) :
    Option.Rel (SameFields asked)
      (getHeaderFields H none (some (layout (o.names.map (groupAt platform o.ledger)))))
      (getHeaderFields H none (some (layout (o'.names.map (groupAt platform o'.ledger))))) := by
  have hperm : (o.names.map (groupAt platform o.ledger)).Perm
      (o'.names.map (groupAt platform o'.ledger)) := by
    rw [← h.ledger]
    exact (h.names_perm h.merged.toRings h.merged'.toRings).map _
  have hdistinct := h.merged.groups_distinct hcomm hapart
  have hnames : o.names.map (groupAt platform o.ledger) ≠ [] := by simpa [Observed.names] using hne
  have hvalues : ∀ g ∈ o.names.map (groupAt platform o.ledger), g.2 ≠ [] := by
    intro g hg
    rw [Observed.names, List.map_map] at hg
    obtain ⟨e, he, rfl⟩ := List.mem_map.mp hg
    have hgroup := h.merged.groupOf_entry platform he
    rw [Function.comp_apply, ← hgroup]
    exact List.ne_nil_of_mem (List.mem_map_of_mem (h.merged.ring e he).last_mem)
  obtain ⟨m, hmap, hfiles⟩ := getHeaderFields_layout (H := H) hnames hvalues hdistinct
  obtain ⟨m', hmap', hfiles'⟩ := getHeaderFields_layout (H := H)
    (fun hnil => hnames (by simpa [hnil] using hperm.length_eq))
    (fun g hg => hvalues g (hperm.mem_iff.mpr hg))
    (hperm.pairwise hdistinct fun {a b} hab => (hcomm _ _).trans hab)
  rw [hmap, hmap']
  refine .some (hfiles.sameFields hcomm htrans hfiles' hperm hdistinct fun key hkey g hg => ?_)
  obtain ⟨a, ha, hname⟩ := h.merged.toRings.group_line hg
  rw [hname]
  exact hasked key hkey a ha

end Arrays

/-! ## Two runs -/

/-- What is left of the tables does not matter: they have one size, or the names of each head
are told apart. -/
def TellsAlike (equals : JString → JString → Bool) (platform : Platform) (first second : CurlData)
    (lines : List HeaderLine) : Prop :=
  first.headers.bucketCount = second.headers.bucketCount ∨
    ∀ heard, heard <+: lines → (lastHead heard).Pairwise (ToldApart equals platform)

section Runs
variable {equals : JString → JString → Bool} {platform : Platform} {first second : CurlData}
  {lines : List HeaderLine}

/-- Two handles that have been reset, and lines that they will be handed. -/
structure SameLines (equals : JString → JString → Bool) (platform : Platform)
    (first second : CurlData) (lines : List HeaderLine) : Prop where
  isReset : first.IsReset
  isReset' : second.IsReset
  comparesNames : first.ComparesNames
  comparesNames' : second.ComparesNames
  allocated : ∀ line ∈ lines, line.Allocated
  responses : Responses lines
  tellsAlike : TellsAlike equals platform first second lines

theorem SameLines.of_prefix (h : SameLines equals platform first second lines)
    {heard : List HeaderLine} (hpre : heard <+: lines) :
    SameLines equals platform first second heard where
  isReset := h.isReset
  isReset' := h.isReset'
  comparesNames := h.comparesNames
  comparesNames' := h.comparesNames'
  allocated := fun line hline => h.allocated line (hpre.subset hline)
  responses := h.responses.of_prefix hpre
  tellsAlike := h.tellsAlike.imp_right fun hapart before hbefore =>
    hapart before (hbefore.trans hpre)

/-- **Two handles that have been handed the same lines answer alike.** -/
theorem SameLines.twins (h : SameLines equals platform first second lines) :
    Twins ((Observed.start first).run lines) ((Observed.start second).run lines) := by
  rcases h.tellsAlike with hcount | hapart
  · exact .inl (chained_run h.isReset h.isReset' h.comparesNames h.comparesNames' hcount lines
      h.allocated h.responses)
  · exact .inr (mergedTwins_run h.isReset h.isReset' h.comparesNames h.comparesNames' lines
      h.allocated h.responses ((hapart lines (List.prefix_refl _)).imp fun hab => hab.merges))

/-- What is left of the tables does not matter to the key: they have one size, or the key
matches the names of the lines only if the two are the same up to `A`-`Z`. -/
def AskedAlike (equals : JString → JString → Bool) (platform : Platform)
    (first second : CurlData) (lines : List HeaderLine) (key : JString) : Prop :=
  first.headers.bucketCount = second.headers.bucketCount ∨
    ∀ line ∈ lines, MatchesPlainly equals (line.key.map platform.jchar) key

theorem AskedAlike.of_prefix {key : JString}
    (h : AskedAlike equals platform first second lines key) {heard : List HeaderLine}
    (hpre : heard <+: lines) : AskedAlike equals platform first second heard key :=
  h.imp_right fun hplain line hline => hplain line (hpre.subset hline)

/-- They hand over arrays that the caller cannot tell apart, too. -/
theorem SameLines.arrays (h : SameLines equals platform first second lines)
    (hcomm : ∀ a b, equals a b = equals b a)
    (htrans : ∀ a b c, equals a b = true → equals b c = true → equals a c = true)
    {H : HdrMap equals} {asked : JString → Prop}
    (hasked : ∀ key, asked key → AskedAlike equals platform first second lines key)
    {alloc : ArrayAlloc}
    (hok : alloc.Succeeds) (henv : ((Observed.start first).run lines).ctrl.env = ⟨none⟩)
    (henv' : ((Observed.start second).run lines).ctrl.env = ⟨none⟩) :
    ∃ r r', ((Observed.start first).run lines).ctrl.getResponseHeaders platform alloc = some r ∧
      ((Observed.start second).run lines).ctrl.getResponseHeaders platform alloc = some r' ∧
      SameArrays H asked r r' := by
  have hcount := headerPairCount_run_le h.isReset lines h.allocated h.responses
  refine h.twins.alike.arrays h.twins.stored.1 h.twins.stored.2 hcount hok henv henv' fun hne => ?_
  by_cases hbuckets : first.headers.bucketCount = second.headers.bucketCount
  · have hchained := chained_run h.isReset h.isReset' h.comparesNames h.comparesNames' hbuckets
      lines h.allocated h.responses
    rw [hchained.names_eq, hchained.ledger]
    cases getHeaderFields H none _ with
    | none => exact .none
    | some fields => exact .some (SameFields.refl fields)
  · have hapart := h.tellsAlike.resolve_left hbuckets
    have haccepted := accepted_lastHead h.isReset h.comparesNames lines h.allocated h.responses
    have hmerged := mergedTwins_run h.isReset h.isReset' h.comparesNames h.comparesNames' lines
      h.allocated h.responses ((hapart lines (List.prefix_refl _)).imp fun hab => hab.merges)
    refine hmerged.sameFields hcomm htrans hne ?_ fun key hkey a ha =>
      (hasked key hkey).resolve_left hbuckets a.line ?_
    · rw [haccepted]
      exact hapart lines (List.prefix_refl _)
    · have hmem : a.line ∈ lastHead lines := haccepted ▸ List.mem_map_of_mem ha
      exact (List.rtakeWhile_suffix _ lines).subset (List.mem_of_mem_filter hmem)

end Runs
end Chttpc
