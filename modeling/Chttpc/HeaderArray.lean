import Chttpc.HeaderRings

/-!
# Headers as one Java array: `getResponseHeaders` and `getRequestHeaders`

All response headers go to Java in one array of strings: for each entry of the
map its name, its values from the oldest to the newest, and an element that is
left `null`, except behind the last one.  The array is allocated first, with a
capacity computed from the number of entries and the number of pairs, and then
filled in one scan of the buckets that walks the ring of each entry.

`HeaderWriter` is the array under way, with the index of the next element and
the indices written so far.  `WrittenOut` says what it holds: a list of elements,
then `null`s.  `getResponseHeaders_eq` gives the whole array for a store whose
rings and counts agree.
-/

namespace Chttpc
open CircularList

/-- Which of the allocations of a call that returns an array succeed. -/
structure ArrayAlloc where
  tempBuffer : Bool
  strArray : Bool
  localFrame : Bool
  string : Nat → Bool

/-- The array under way: its elements, the next index, the indices written, and
the JNI environment. -/
structure HeaderWriter where
  strArray : List (Option JString)
  hdrPos : Nat
  written : List Nat
  env : JNIEnv

/-- Why a scan ends early. -/
inductive Stop
  | outOfMemory (w : HeaderWriter)
  | neverReturns

namespace HeaderWriter

/-- `SetObjectArrayElement` at the next index. -/
def setObjectArrayElement (w : HeaderWriter) (str : JString) : HeaderWriter :=
  { strArray := w.strArray.set w.hdrPos (some str)
    hdrPos := w.hdrPos + 1
    written := w.written ++ [w.hdrPos]
    env := if w.hdrPos < w.strArray.length then w.env else w.env.throw .arrayIndexOutOfBounds }

/-- Makes a Java string of the text and stores it. -/
def put (platform : Platform) (alloc : ArrayAlloc) (text : List UInt8) (w : HeaderWriter) :
    Except Stop HeaderWriter :=
  match platform.headerToString (alloc.string w.hdrPos) text with
  | none => .error (.outOfMemory { w with env := w.env.throw .outOfMemoryError })
  | some str => .ok (w.setObjectArrayElement str)

end HeaderWriter

namespace CurlData

/-- The blocks the `do … while` loop visits for an entry. -/
def ringOf (ctrl : CurlData) (entry : Entry CString Nat) : Option (List Nat) :=
  (ctrl.refOf entry.value).bind fun first => walk ctrl.refOf first ctrl.blocks.length first

section Scan
variable (ctrl : CurlData) (platform : Platform) (alloc : ArrayAlloc)

def writeValues : List Nat → HeaderWriter → Except Stop HeaderWriter
  | [], w => .ok w
  | block :: blocks, w =>
      match w.put platform alloc ((ctrl.valueText block).getD []) with
      | .error stop => .error stop
      | .ok w => writeValues blocks w

/-- The body of the scan: the name, the values, and an element left out. -/
def writeEntry (entry : Entry CString Nat) (w : HeaderWriter) : Except Stop HeaderWriter :=
  match w.put platform alloc entry.key.chars with
  | .error stop => .error stop
  | .ok w =>
      match ctrl.ringOf entry with
      | none => .error .neverReturns
      | some blocks =>
          match ctrl.writeValues platform alloc blocks w with
          | .error stop => .error stop
          | .ok w => .ok { w with hdrPos := w.hdrPos + 1 }

def writeEntries : List (Entry CString Nat) → HeaderWriter → Except Stop HeaderWriter
  | [], w => .ok w
  | entry :: entries, w =>
      match ctrl.writeEntry platform alloc entry w with
      | .error stop => .error stop
      | .ok w => writeEntries entries w

end Scan

/-- What a call that returns an array leaves behind: the array or `NULL`, and the
indices written. -/
structure ArrayResult where
  strArray : Option (List (Option JString))
  written : List Nat
  env : JNIEnv

/-- `getResponseHeaders`; `none` if the scan does not come back. -/
def getResponseHeaders (ctrl : CurlData) (platform : Platform) (alloc : ArrayAlloc) :
    Option ArrayResult :=
  if ctrl.headers.size = 0 then some ⟨none, [], ctrl.env⟩
  else if MAX_LOCAL_ALLOC < ctrl.maxHeaderLength ∧ alloc.tempBuffer = false then
    some ⟨none, [], ctrl.oomThrow.env⟩
  else
    let size : Int := ctrl.headers.size
    let arrayCapacity := toInt32 (size * 3 + (ctrl.headerPairCount - 1 - size) - 1)
    if arrayCapacity < 0 then some ⟨none, [], ctrl.env.throw .negativeArraySize⟩
    else if alloc.strArray = false then some ⟨none, [], ctrl.env.throw .outOfMemoryError⟩
    else
      let strArray := List.replicate arrayCapacity.toNat none
      if 5 < ctrl.headerPairCount ∧ alloc.localFrame = false then
        some ⟨some strArray, [], ctrl.env.throw .outOfMemoryError⟩
      else
        match ctrl.writeEntries platform alloc ctrl.headers.entries ⟨strArray, 0, [], ctrl.env⟩ with
        | .ok w => some ⟨some w.strArray, w.written, w.env⟩
        | .error (.outOfMemory w) => some ⟨none, w.written, w.env⟩
        | .error .neverReturns => none

/-! ## Request headers -/

/-- One header of `outHeaders`: skipped, or its name and value.  The text ends at its
first NUL. -/
def requestHeader (data : List UInt8) : Option (List UInt8 × List UInt8) :=
  let entry := cString data
  let colon := entry.findIdx (· == 58)
  if colon < entry.length then
    -- a colon at the end is the stub that disables a default header
    if colon + 1 = entry.length then none
    else some (entry.take colon, (entry.drop (colon + 1)).take (entry.length - colon - 1))
  else some (entry.take (entry.length - 1), [])

/-- The loop of `getRequestHeaders`; `hdrPos` is `actualCount * 2`. -/
def writeRequestHeaders (platform : Platform) (alloc : ArrayAlloc) :
    List (List UInt8) → HeaderWriter → Except Stop HeaderWriter
  | [], w => .ok w
  | data :: outHeaders, w =>
      match requestHeader data with
      | none => writeRequestHeaders platform alloc outHeaders w
      | some (key, value) =>
          match w.put platform alloc key with
          | .error stop => .error stop
          | .ok w =>
              match w.put platform alloc value with
              | .error stop => .error stop
              | .ok w => writeRequestHeaders platform alloc outHeaders w

/-- `getRequestHeaders`; its loop meets at most `outHeaderCount` headers. -/
def getRequestHeaders (ctrl : CurlData) (platform : Platform) (alloc : ArrayAlloc) : ArrayResult :=
  let arrayCapacity := ctrl.outHeaderCount * 2
  if ctrl.outHeaders = [] ∨ arrayCapacity = 0 then ⟨none, [], ctrl.env⟩
  else if alloc.tempBuffer = false then ⟨none, [], ctrl.oomThrow.env⟩
  else if alloc.strArray = false then ⟨none, [], ctrl.env.throw .outOfMemoryError⟩
  else
    let strArray := List.replicate arrayCapacity none
    if 5 < ctrl.outHeaderCount ∧ alloc.localFrame = false then
      ⟨some strArray, [], ctrl.env.throw .outOfMemoryError⟩
    else
      match writeRequestHeaders platform alloc (ctrl.outHeaders.take ctrl.outHeaderCount)
          ⟨strArray, 0, [], ctrl.env⟩ with
      | .ok w => ⟨some w.strArray, w.written, w.env⟩
      | .error (.outOfMemory w) => ⟨none, w.written, w.env⟩
      | .error .neverReturns => ⟨none, [], ctrl.env⟩

end CurlData

/-! ## The array of a store -/

def ArrayAlloc.Succeeds (alloc : ArrayAlloc) : Prop :=
  alloc.tempBuffer = true ∧ alloc.strArray = true ∧ alloc.localFrame = true ∧
    ∀ i, alloc.string i = true

/-- The elements for names and their values: groups with a `null` in between. -/
def layout : List (JString × List JString) → List (Option JString)
  | [] => []
  | [(name, values)] => some name :: values.map some
  | (name, values) :: group :: groups =>
      some name :: (values.map some ++ none :: layout (group :: groups))

theorem length_layout : ∀ {groups : List (JString × List JString)}, groups ≠ [] →
    (layout groups).length + 1 = (groups.map fun g => g.2.length + 2).sum
  | [], h => absurd rfl h
  | [_], _ => by simp [layout]
  | _ :: g :: groups, _ => by
      have ih := length_layout (List.cons_ne_nil g groups)
      simp only [layout, List.length_cons, List.length_append, List.length_map, List.map_cons,
        List.sum_cons] at ih ⊢
      omega

/-- The array holds `xs` and then `n` elements that are still `null`. -/
structure WrittenOut (env : JNIEnv) (w : HeaderWriter) (xs : List (Option JString)) (n : Nat) :
    Prop where
  strArray : w.strArray = xs ++ List.replicate n none
  hdrPos : w.hdrPos = xs.length
  written : ∀ i ∈ w.written, i < xs.length + n
  env_eq : w.env = env

section Write
variable {env : JNIEnv} {w : HeaderWriter} {xs : List (Option JString)} {n : Nat}
  {platform : Platform} {alloc : ArrayAlloc} {ctrl : CurlData}

theorem WrittenOut.put (platform : Platform) (h : WrittenOut env w xs (n + 1))
    (hok : alloc.string w.hdrPos = true) (text : List UInt8) :
    ∃ w', w.put platform alloc text = .ok w' ∧
      WrittenOut env w' (xs ++ [some (text.map platform.jchar)]) n := by
  refine ⟨w.setObjectArrayElement (text.map platform.jchar), ?_, ?_, ?_, ?_, ?_⟩
  · simp [HeaderWriter.put, Platform.headerToString, hok]
  · simp [HeaderWriter.setObjectArrayElement, h.strArray, h.hdrPos, List.replicate_succ]
  · simp [HeaderWriter.setObjectArrayElement, h.hdrPos]
  · intro i hi
    simp only [HeaderWriter.setObjectArrayElement, List.mem_append, List.mem_singleton] at hi
    rw [List.length_append, List.length_singleton]
    rcases hi with hi | rfl
    · have := h.written i hi
      omega
    · rw [h.hdrPos]; omega
  · simp [HeaderWriter.setObjectArrayElement, h.hdrPos, h.strArray, h.env_eq]

/-- The string of the value in a block. -/
def valueString (platform : Platform) (ctrl : CurlData) (block : Nat) : JString :=
  ((ctrl.valueText block).getD []).map platform.jchar

theorem WrittenOut.writeValues (ctrl : CurlData) (platform : Platform) (hok : alloc.Succeeds) :
    ∀ (blocks : List Nat) (w : HeaderWriter) (xs : List (Option JString)),
      WrittenOut env w xs (n + blocks.length) →
      ∃ w', ctrl.writeValues platform alloc blocks w = .ok w' ∧
        WrittenOut env w' (xs ++ (blocks.map (valueString platform ctrl)).map some) n
  | [], w, xs, h => ⟨w, rfl, by simpa using h⟩
  | block :: blocks, w, xs, h => by
      rw [List.length_cons, ← Nat.add_assoc] at h
      obtain ⟨w', hput, h'⟩ := h.put platform (hok.2.2.2 _) ((ctrl.valueText block).getD [])
      obtain ⟨w'', hrest, h''⟩ := WrittenOut.writeValues ctrl platform hok blocks w' _ h'
      refine ⟨w'', by rw [CurlData.writeValues, hput]; exact hrest, ?_⟩
      rw [List.append_assoc] at h''
      exact h''

/-- The name and the values of an entry, as they are to stand in the array. -/
def groupOf (platform : Platform) (ctrl : CurlData) (entry : Entry CString Nat)
    (blocks : List Nat) : JString × List JString :=
  (entry.key.chars.map platform.jchar, blocks.map (valueString platform ctrl))

/-- One entry is written out; the index then stands behind an element that was
left `null`, or behind the array. -/
theorem WrittenOut.writeEntry {entry : Entry CString Nat} {blocks : List Nat}
    (hok : alloc.Succeeds) (hring : ctrl.ringOf entry = some blocks)
    (h : WrittenOut env w xs (n + (blocks.length + 1))) :
    ∃ w', ctrl.writeEntry platform alloc entry w = .ok { w' with hdrPos := w'.hdrPos + 1 } ∧
      WrittenOut env w' (xs ++ (some (groupOf platform ctrl entry blocks).1 ::
        (groupOf platform ctrl entry blocks).2.map some)) n := by
  rw [← Nat.add_assoc] at h
  obtain ⟨w', hput, h'⟩ := h.put platform (hok.2.2.2 _) entry.key.chars
  obtain ⟨w'', hvalues, h''⟩ := WrittenOut.writeValues ctrl platform hok blocks w' _ h'
  refine ⟨w'', ?_, ?_⟩
  · simp only [CurlData.writeEntry, hput, hring, hvalues]
  · rw [List.append_assoc] at h''
    exact h''

theorem WrittenOut.skip (h : WrittenOut env w xs (n + 1)) :
    WrittenOut env { w with hdrPos := w.hdrPos + 1 } (xs ++ [none]) n where
  strArray := by rw [h.strArray, List.replicate_succ, List.append_assoc]; rfl
  hdrPos := by rw [h.hdrPos, List.length_append, List.length_singleton]
  written := by
    intro i hi
    have := h.written i hi
    rw [List.length_append, List.length_singleton]
    omega
  env_eq := h.env_eq

/-- **The scan fills the array**, if its length is that of the layout. -/
theorem WrittenOut.writeEntries (hok : alloc.Succeeds) {entries : List (Entry CString Nat)}
    {rings : List (List Nat)}
    (hrings : List.Forall₂ (fun e blocks => ctrl.ringOf e = some blocks) entries rings) :
    ∀ (w : HeaderWriter) (xs : List (Option JString)), entries ≠ [] →
      WrittenOut env w xs (layout (List.zipWith (groupOf platform ctrl) entries rings)).length →
      ∃ w', ctrl.writeEntries platform alloc entries w = .ok w' ∧ w'.env = env ∧
        w'.strArray = xs ++ layout (List.zipWith (groupOf platform ctrl) entries rings) ∧
        ∀ i ∈ w'.written, i < w'.strArray.length := by
  induction hrings with
  | nil => exact fun _ _ hne => absurd rfl hne
  | @cons entry blocks entries rings hring hrings ih =>
    intro w xs _ h
    cases hrings with
    | nil =>
      have hlen : (layout (List.zipWith (groupOf platform ctrl) [entry] [blocks])).length =
          0 + (blocks.length + 1) := by simp [layout, groupOf]
      rw [hlen] at h
      obtain ⟨w', hentry, h'⟩ := WrittenOut.writeEntry hok hring h
      have harray : w'.strArray = xs ++ layout (List.zipWith (groupOf platform ctrl) [entry]
          [blocks]) := h'.strArray.trans (List.append_nil _)
      refine ⟨{ w' with hdrPos := w'.hdrPos + 1 },
        by rw [CurlData.writeEntries, hentry]; rfl, h'.env_eq, harray, ?_⟩
      intro i hi
      have hlt := h'.written i hi
      show i < w'.strArray.length
      rw [h'.strArray, List.length_append, List.length_replicate]
      exact hlt
    | @cons e b entries rings he hrest =>
      have hlen : (layout (List.zipWith (groupOf platform ctrl) (entry :: e :: entries)
          (blocks :: b :: rings))).length =
          ((layout (List.zipWith (groupOf platform ctrl) (e :: entries) (b :: rings))).length + 1) +
            (blocks.length + 1) := by
        simp only [List.zipWith_cons_cons, layout, groupOf, List.length_cons, List.length_append,
          List.length_map]
        omega
      rw [hlen] at h
      obtain ⟨w', hentry, h'⟩ := WrittenOut.writeEntry hok hring h
      obtain ⟨w'', hwrite, henv, harray, hwritten⟩ := ih _ _ (List.cons_ne_nil _ _) h'.skip
      refine ⟨w'', by rw [CurlData.writeEntries, hentry]; exact hwrite, henv, ?_, hwritten⟩
      rw [harray]
      simp [layout]

end Write

/-- A store whose entries carry the given rings, and whose counts agree with them. -/
structure GroupedStore (ctrl : CurlData) (rings : List (List Nat)) : Prop where
  size_eq : ctrl.headers.size = ctrl.headers.entries.length
  nonempty : ctrl.headers.entries ≠ []
  ring : List.Forall₂ (fun e blocks => IsRing ctrl.refOf blocks e.value)
    ctrl.headers.entries rings
  count : ctrl.headerPairCount = 1 + (rings.map List.length).sum
  count_lt : ctrl.headerPairCount < 2 ^ 16

namespace GroupedStore
variable {ctrl : CurlData} {rings : List (List Nat)}

/-- The names and values of the store, entry by entry. -/
def groups (ctrl : CurlData) (platform : Platform) (rings : List (List Nat)) :
    List (JString × List JString) :=
  List.zipWith (groupOf platform ctrl) ctrl.headers.entries rings

theorem ringOf (h : GroupedStore ctrl rings) :
    List.Forall₂ (fun e blocks => ctrl.ringOf e = some blocks) ctrl.headers.entries rings := by
  refine h.ring.imp fun e blocks hring => ?_
  obtain ⟨first, hfirst, hwalk⟩ := hring.walk_eq (CurlData.length_le_of_isRing hring)
  rw [CurlData.ringOf, hfirst, Option.bind_some, hwalk]

theorem length_rings (h : GroupedStore ctrl rings) :
    rings.length = ctrl.headers.entries.length := h.ring.length_eq.symm

/-- Every ring has a value. -/
theorem length_le_sum (h : GroupedStore ctrl rings) :
    ctrl.headers.entries.length ≤ (rings.map List.length).sum := by
  have hrings := h.ring
  generalize ctrl.headers.entries = entries at hrings
  clear h
  induction hrings with
  | nil => simp
  | @cons e blocks _ _ hring _ ih =>
    have hpos : 0 < blocks.length := List.length_pos_of_mem hring.last_mem
    simp only [List.length_cons, List.map_cons, List.sum_cons]
    omega

theorem sum_groups (ctrl : CurlData) (platform : Platform) :
    ∀ (entries : List (Entry CString Nat)) (rings : List (List Nat)),
      rings.length = entries.length →
      ((List.zipWith (groupOf platform ctrl) entries rings).map fun g => g.2.length + 2).sum =
        2 * entries.length + (rings.map List.length).sum
  | [], [], _ => rfl
  | _ :: entries, _ :: rings, h => by
      have ih := sum_groups ctrl platform entries rings (by simpa using h)
      simp only [List.zipWith_cons_cons, List.map_cons, List.sum_cons, List.length_cons, ih,
        groupOf, List.length_map]
      omega

theorem length_groups (h : GroupedStore ctrl rings) (platform : Platform) :
    (groups ctrl platform rings).length = ctrl.headers.entries.length := by
  rw [groups, List.length_zipWith, h.length_rings, Nat.min_self]

theorem groups_ne_nil (h : GroupedStore ctrl rings) (platform : Platform) :
    groups ctrl platform rings ≠ [] := by
  intro hnil
  have hlen := h.length_groups platform
  rw [hnil] at hlen
  exact h.nonempty (List.length_eq_zero_iff.mp hlen.symm)

/-- Every name has a value. -/
theorem values_ne_nil (h : GroupedStore ctrl rings) (platform : Platform) :
    ∀ g ∈ groups ctrl platform rings, g.2 ≠ [] := by
  have hrings := h.ring
  unfold groups
  generalize ctrl.headers.entries = entries at hrings
  clear h
  induction hrings with
  | nil => simp
  | @cons e blocks _ _ hring _ ih =>
    intro g hg
    rcases List.mem_cons.mp hg with rfl | hg
    · simpa [groupOf] using List.ne_nil_of_mem hring.last_mem
    · exact ih g hg

/-- The length of the layout, by the counts of the store. -/
theorem length_layout_groups (h : GroupedStore ctrl rings) (platform : Platform) :
    ((layout (groups ctrl platform rings)).length : Int) =
        ctrl.headers.size * 3 + (ctrl.headerPairCount - 1 - ctrl.headers.size) - 1 ∧
      ctrl.headers.entries.length ≤ (layout (groups ctrl platform rings)).length ∧
      (layout (groups ctrl platform rings)).length < 2 ^ 31 := by
  have hlayout := length_layout (h.groups_ne_nil platform)
  have hsum := sum_groups ctrl platform ctrl.headers.entries rings h.length_rings
  have hpos := List.length_pos_of_ne_nil h.nonempty
  have hle := h.length_le_sum
  have hcount := h.count
  have hlt := h.count_lt
  have hsize := h.size_eq
  rw [← groups] at hsum
  omega

/-- **The array of a store**: with the allocations succeeding, `getResponseHeaders`
allocates exactly what it fills, writes inside the array only, and leaves the
names and values of the store laid out in it. -/
theorem getResponseHeaders_eq (h : GroupedStore ctrl rings) (platform : Platform)
    {alloc : ArrayAlloc} (hok : alloc.Succeeds) :
    ∃ written, ctrl.getResponseHeaders platform alloc =
        some ⟨some (layout (groups ctrl platform rings)), written, ctrl.env⟩ ∧
      ∀ i ∈ written, i < (layout (groups ctrl platform rings)).length := by
  have hsize : ctrl.headers.size ≠ 0 := by
    rw [h.size_eq]
    exact (List.length_pos_of_ne_nil h.nonempty).ne'
  obtain ⟨hlength, -, hlt⟩ := h.length_layout_groups platform
  have hcapacity : toInt32 ((ctrl.headers.size : Int) * 3 +
      (ctrl.headerPairCount - 1 - ctrl.headers.size) - 1) =
        ((layout (groups ctrl platform rings)).length : Nat) := by
    rw [← hlength, toInt32_of_nat hlt]
  have hstart : WrittenOut ctrl.env
      ⟨List.replicate (layout (groups ctrl platform rings)).length none, 0, [], ctrl.env⟩ []
      (layout (groups ctrl platform rings)).length :=
    ⟨rfl, rfl, by simp, rfl⟩
  obtain ⟨w, hwrite, henv, harray, hwritten⟩ :=
    WrittenOut.writeEntries hok h.ringOf _ _ h.nonempty hstart
  refine ⟨w.written, ?_, by rwa [harray] at hwritten⟩
  simp only [CurlData.getResponseHeaders, hsize, if_false, hok.1, hok.2.1, hok.2.2.1, Bool.true_eq_false,
    and_false, hcapacity, Int.toNat_natCast, hwrite, harray, henv, List.nil_append]
  rw [if_neg (by omega)]
  rfl

end GroupedStore

end Chttpc
