import Chttpc.HashmapRelated
import Chttpc.HeaderPositions

/-!
# Two handles that receive the same lines

Two handles that have been reset may differ in what is left of earlier responses: in the
blocks that are still there, in what lies behind the counted pairs, and in the size of the
table.  If they receive the same lines from then on, they show the same texts.

Blocks and names are compared by their distance from the last clearing, and the ledger of
the accepted lines says which belong together (`Alike`).  One line keeps two handles alike
if both resolve it to corresponding entries (`Alike.header`), and there are two reasons why
they do.  With tables of one size the chains correspond, entry by entry (`Chained`).  With
tables of any size there is only one entry to be found if the names are told apart: lines
with one hash share an entry (`Merged`).
-/

namespace Chttpc
open Hashmap

/-! ## What is compared -/

/-- A line of the ledger, with the distances of its block and of its owner from the last
clearing. -/
structure Entered where
  line : HeaderLine
  block : Nat
  owner : Nat

namespace Observed
variable (o : Observed)

def entered (a : Accepted) : Entered := ⟨a.line, a.block - o.since, a.owner - o.since⟩

def ledger : List Entered := o.accepted.map o.entered

/-- The distances of the names of the entries from the last clearing, in the order of the
scan. -/
def names : List Nat := o.ctrl.headers.entries.map fun e => e.key.addr - o.since

end Observed

/-- The two handles show the same, as far as it depends on what has arrived since the last
clearing. -/
structure Alike (o o' : Observed) : Prop where
  seenHeaderEnd : o.ctrl.state.seenHeaderEnd = o'.ctrl.state.seenHeaderEnd
  count : o.ctrl.headerPairCount = o'.ctrl.headerPairCount
  length : o.ctrl.blocks.length - o.since = o'.ctrl.blocks.length - o'.since
  slots : ∀ i < 2 * o.ctrl.headerPairCount, o.ctrl.slotText i = o'.ctrl.slotText i
  ledger : o.ledger = o'.ledger

/-- The name of the line that arrived at a distance. -/
def keyAt (ledger : List Entered) (distance : Nat) : Option (List UInt8) :=
  (ledger.find? fun a => a.block + 1 == distance).map (·.line.key)

section Observed
variable {o o' : Observed} {line : HeaderLine}

/-! ## Names by their distance -/

theorem Rings.owner_accepted (h : Rings o) {a : Accepted} (ha : a ∈ o.accepted) :
    o.since < a.owner := by
  obtain ⟨e, he, haddr, -⟩ := h.owned a ha
  rw [← haddr]
  exact (h.key_since e he).1

/-- The distance of an accepted line determines it. -/
theorem Rings.keyAt_block (h : Rings o) {a : Accepted} (ha : a ∈ o.accepted) :
    keyAt o.ledger (a.block + 1 - o.since) = some a.line.key := by
  have hsince := (h.block_since a ha).1
  have hfind : o.ledger.find? (fun x => x.block + 1 == a.block + 1 - o.since) =
      some (o.entered a) := by
    unfold Observed.ledger
    rw [List.find?_map]
    have hat : o.accepted.find? ((fun x : Entered => x.block + 1 == a.block + 1 - o.since) ∘
        o.entered) = some a := by
      cases hfound : o.accepted.find? _ with
      | none =>
        have hnot := List.find?_eq_none.mp hfound a ha
        simp only [Function.comp, Observed.entered, beq_iff_eq] at hnot
        omega
      | some b =>
        have hb := List.mem_of_find?_eq_some hfound
        have hblock := List.find?_some hfound
        have hbsince := (h.block_since b hb).1
        simp only [Function.comp, Observed.entered, beq_iff_eq] at hblock
        -- two accepted lines at one distance are in one block
        rw [h.accepted_unique hb ha (by omega)]
    rw [hat]
    rfl
  rw [keyAt, hfind]
  rfl

theorem Rings.keyAt_entry (h : Rings o) {e : Entry CString Nat}
    (he : e ∈ o.ctrl.headers.entries) :
    keyAt o.ledger (e.key.addr - o.since) = some e.key.chars := by
  obtain ⟨a, ha, hkey⟩ := h.key_line e he
  rw [hkey, HeaderLine.name_addr]
  exact h.keyAt_block ha

/-- The entry found for a line, or the one that will be made for it. -/
theorem owner_cases (o : Observed) (line : HeaderLine) :
    (∃ e ∈ o.ctrl.headers.entries, o.ctrl.headers.found (line.name o.ctrl.blocks.length) e = true ∧
        o.ctrl.owner line = e.key) ∨
      o.ctrl.headers.entryGet (line.name o.ctrl.blocks.length) = none ∧
        o.ctrl.owner line = line.name o.ctrl.blocks.length := by
  unfold CurlData.owner
  cases hget : o.ctrl.headers.entryGet (line.name o.ctrl.blocks.length) with
  | none => exact .inr ⟨rfl, rfl⟩
  | some ref =>
    obtain ⟨front, e, rest, hentries, hat, hfound, -⟩ := Hashmap.entryGet_some hget
    refine .inl ⟨e, by rw [hentries]; simp, hfound, ?_⟩
    rw [Option.bind_some, hat]

/-- The name a line is entered under, by its distance. -/
theorem Rings.owner_chars (h : Rings o) (line : HeaderLine) :
    (o.ctrl.owner line).chars =
      (keyAt o.ledger ((o.ctrl.owner line).addr - o.since)).getD line.key := by
  rcases owner_cases o line with ⟨e, he, -, howner⟩ | ⟨-, howner⟩
  · rw [howner, h.keyAt_entry he]
    rfl
  · have hnone : keyAt o.ledger (o.ctrl.blocks.length + 1 - o.since) = none := by
      unfold keyAt Observed.ledger
      rw [Option.map_eq_none_iff, List.find?_eq_none]
      intro x hx
      obtain ⟨a, ha, rfl⟩ := List.mem_map.mp hx
      obtain ⟨h1, h2⟩ := h.block_since a ha
      simp only [Observed.entered, beq_iff_eq]
      omega
    rw [howner, HeaderLine.name_addr, hnone]
    rfl

/-! ## The texts of the array -/

/-- A status line shows its two texts in slot 0. -/
theorem Stored.slotText_statusLine (h : Stored o) (hok : line.Allocated)
    (ht : line.isStatusLine = true) (i : Nat) :
    (o.step line).ctrl.slotText i =
      if i = 0 then some line.value else if i = 1 then some line.key else o.ctrl.slotText i := by
  rw [Observed.step_ctrl, CurlData.headerCallback_statusLine ht hok.2 h.bufSize_pos]
  by_cases hvalue : i = 0
  · rw [if_pos hvalue, CurlData.slotText]
    dsimp only
    rw [if_pos hvalue]
    simp [CurlData.headerText, CurlData.copyLine]
  rw [if_neg hvalue]
  by_cases hname : i = 1
  · rw [if_pos hname, CurlData.slotText]
    dsimp only
    rw [if_neg hvalue, if_pos hname]
    rfl
  rw [if_neg hname]
  refine CurlData.slotText_eq ?_ fun block hi => ?_
  · dsimp only
    rw [if_neg hvalue, if_neg hname]
  · have hlt := h.older i block hi
    simp [CurlData.valueText, CurlData.copyLine, List.getElem?_append_left hlt]

/-! ## One line -/

theorem Alike.terminator (h : Alike o o') (hs : line.isSpecial = true)
    (ht : line.isStatusLine = false) : Alike (o.step line) (o'.step line) := by
  rw [Observed.step_terminator hs ht, Observed.step_terminator hs ht]
  exact ⟨rfl, h.count, h.length, h.slots, h.ledger⟩

/-- What a status line that clears the headers leaves depends on the line alone. -/
theorem alike_of_clears (h : Stored o) (h' : Stored o') (hok : line.Allocated)
    (ht : line.isStatusLine = true) (hend : o.ctrl.state.seenHeaderEnd = true)
    (hend' : o'.ctrl.state.seenHeaderEnd = true) : Alike (o.step line) (o'.step line) := by
  have hcount := Filled.count_statusLine h hok ht (.inl hend)
  have hcount' := Filled.count_statusLine h' hok ht (.inl hend')
  refine ⟨?_, hcount.trans hcount'.symm, ?_, ?_, ?_⟩
  · rw [Observed.step_ctrl, Observed.step_ctrl,
      CurlData.headerCallback_statusLine ht hok.2 h.bufSize_pos,
      CurlData.headerCallback_statusLine ht hok.2 h'.bufSize_pos]
    simp [CurlData.copyLine, CurlData.beginResponse, hend, hend']
  · rw [Observed.step_clears ht hend, Observed.step_clears ht hend',
      CurlData.headerCallback_statusLine ht hok.2 h.bufSize_pos,
      CurlData.headerCallback_statusLine ht hok.2 h'.bufSize_pos]
    simp
  · intro i hi
    rw [hcount] at hi
    rw [h.slotText_statusLine hok ht, h'.slotText_statusLine hok ht]
    split
    · rfl
    · rw [if_pos (by omega), if_pos (by omega)]
  · rw [Observed.step_clears ht hend, Observed.step_clears ht hend', Observed.ledger,
      Observed.ledger]
    simp

/-- A status line that comes first of all. -/
theorem Alike.statusLine (h : Alike o o') (ho : Stored o) (ho' : Stored o') (hok : line.Allocated)
    (ht : line.isStatusLine = true)
    (hempty : o.ctrl.state.seenHeaderEnd = true ∨ o.ctrl.headerPairCount = 0) :
    Alike (o.step line) (o'.step line) := by
  cases hend : o.ctrl.state.seenHeaderEnd with
  | true => exact alike_of_clears ho ho' hok ht hend (h.seenHeaderEnd.symm.trans hend)
  | false =>
    have hend' : o'.ctrl.state.seenHeaderEnd = false := h.seenHeaderEnd.symm.trans hend
    have hzero : o.ctrl.headerPairCount = 0 := hempty.resolve_left (by rw [hend]; decide)
    have hcount := Filled.count_statusLine ho hok ht (.inr hzero)
    have hcount' := Filled.count_statusLine ho' hok ht (.inr (h.count.symm.trans hzero))
    have hle := ho.since_le
    have hle' := ho'.since_le
    have hlength := h.length
    refine ⟨?_, hcount.trans hcount'.symm, ?_, ?_, ?_⟩
    · rw [Observed.step_ctrl, Observed.step_ctrl,
        CurlData.headerCallback_statusLine ht hok.2 ho.bufSize_pos,
        CurlData.headerCallback_statusLine ht hok.2 ho'.bufSize_pos]
      simp [CurlData.copyLine, CurlData.beginResponse, hend, hend']
    · rw [Observed.step_statusLine ht hend, Observed.step_statusLine ht hend',
        CurlData.headerCallback_statusLine ht hok.2 ho.bufSize_pos,
        CurlData.headerCallback_statusLine ht hok.2 ho'.bufSize_pos]
      dsimp only
      rw [CurlData.length_copyLine, CurlData.length_copyLine, CurlData.beginResponse_blocks,
        CurlData.beginResponse_blocks]
      omega
    · intro i hi
      rw [hcount] at hi
      rw [ho.slotText_statusLine hok ht, ho'.slotText_statusLine hok ht]
      split
      · rfl
      · rw [if_pos (by omega), if_pos (by omega)]
    · rw [Observed.step_statusLine ht hend, Observed.step_statusLine ht hend']
      exact h.ledger

/-- The two handles resolve the line to corresponding entries. -/
def SameOwner (line : HeaderLine) (o o' : Observed) : Prop :=
  (o.ctrl.owner line).addr - o.since = (o'.ctrl.owner line).addr - o'.since

/-- **A header line keeps two handles alike** if they resolve it to corresponding entries. -/
theorem Alike.header (h : Alike o o') (ho : Stored o) (ho' : Stored o') (hok : line.Allocated)
    (hs : line.isSpecial = false) (howner : SameOwner line o o') :
    Alike (o.step line) (o'.step line) := by
  have hafter : CurlData.AfterHeader line o.ctrl (o.ctrl.headerCallback line).1 :=
    (CurlData.headerCallback_header hs hok.2).1
  have hafter' : CurlData.AfterHeader line o'.ctrl (o'.ctrl.headerCallback line).1 :=
    (CurlData.headerCallback_header hs hok.2).1
  have hle := ho.since_le
  have hle' := ho'.since_le
  have hlength := h.length
  have hchars : (o.ctrl.owner line).chars = (o'.ctrl.owner line).chars := by
    rw [ho.owner_chars, ho'.owner_chars, h.ledger, howner]
  refine ⟨?_, ?_, ?_, ?_, ?_⟩
  · rw [Observed.step_ctrl, Observed.step_ctrl, hafter.state, hafter'.state]
    exact h.seenHeaderEnd
  · rw [Observed.step_ctrl, Observed.step_ctrl, hafter.headerPairCount, hafter'.headerPairCount,
      h.count]
  · rw [Observed.step_header hs, Observed.step_header hs]
    dsimp only
    rw [hafter.length_blocks, hafter'.length_blocks]
    omega
  · intro i hi
    rw [Observed.step_ctrl, hafter.headerPairCount] at hi
    have hle : toUInt16 (o.ctrl.headerPairCount + 1) ≤ o.ctrl.headerPairCount + 1 := Nat.mod_le _ _
    rw [ho.slotText_header hok hs, ho'.slotText_header hok hs, hchars, h.count]
    split
    · rfl
    · split
      · rfl
      · have hcount := h.count
        exact h.slots i (by omega)
  · rw [Observed.step_header hs, Observed.step_header hs]
    have hledger : o.accepted.map o.entered = o'.accepted.map o'.entered := h.ledger
    show (o.accepted ++ [_]).map o.entered = (o'.accepted ++ [_]).map o'.entered
    rw [List.map_append, List.map_append, hledger]
    simp only [List.map_cons, List.map_nil, Observed.entered, hlength]
    rw [howner]

/-! ## Tables of one size -/

/-- The entries have the same name, the same hash, and the same distance. -/
structure Corresponds (n n' : Nat) (e e' : Entry CString Nat) : Prop where
  distance : e.key.addr - n = e'.key.addr - n'
  chars : e.key.chars = e'.key.chars
  hash : e.hash = e'.hash

/-- Two handles whose tables correspond, chain by chain. -/
structure Chained (o o' : Observed) : Prop extends Alike o o' where
  stored : Stored o
  stored' : Stored o'
  comparesNames : o.ctrl.ComparesNames
  comparesNames' : o'.ctrl.ComparesNames
  table : Related (Corresponds o.since o'.since) o.ctrl.headers o'.ctrl.headers

/-- A name that lies behind the names of all entries, or in front of them, answers to an
entry by its texts. -/
theorem found_of_addr_ne {ctrl : CurlData} (hnames : ctrl.ComparesNames) {key : CString}
    {e : Entry CString Nat} (hne : e.key.addr ≠ key.addr) :
    ctrl.headers.found key e =
      (e.hash == ctrl.headers.hashKey key && compareLoop key.byteAt e.key.chars 0) := by
  have hpointer : (e.key == key) = false := by rw [CString.beq_eq, beq_eq_false_iff_ne]; exact hne
  rw [Hashmap.found, equalKeys, hpointer, hnames.2, hashKeyCompare, hpointer]
  cases hhash : e.hash == ctrl.headers.hashKey key with
  | true => simp [bne, hhash]
  | false => simp [bne, hhash]

theorem hashKey_eq {ctrl ctrl' : CurlData} (hnames : ctrl.ComparesNames)
    (hnames' : ctrl'.ComparesNames) {key key' : CString} (h : key.chars = key'.chars) :
    ctrl.headers.hashKey key = ctrl'.headers.hashKey key' := by
  rw [Hashmap.hashKey, Hashmap.hashKey, hnames.1, hnames'.1, hashCalc, hashCalc, h]

/-- The entries answer alike to a name that is none of theirs. -/
theorem Chained.sameTest (h : Chained o o') {key key' : CString} (hchars : key.chars = key'.chars)
    (hbeyond : key.beyond = key'.beyond)
    (hkey : ∀ e ∈ o.ctrl.headers.entries, e.key.addr ≠ key.addr)
    (hkey' : ∀ e ∈ o'.ctrl.headers.entries, e.key.addr ≠ key'.addr) :
    SameTest (Corresponds o.since o'.since) o.ctrl.headers o'.ctrl.headers key key' where
  hashKey := hashKey_eq h.comparesNames h.comparesNames' hchars
  found := by
    intro e he e' he' hr
    have hbyte : key.byteAt = key'.byteAt := by
      unfold CString.byteAt
      simp only [hchars, hbeyond]
    rw [found_of_addr_ne h.comparesNames (hkey e he),
      found_of_addr_ne h.comparesNames' (hkey' e' he'), hr.hash, hr.chars, hbyte,
      hashKey_eq h.comparesNames h.comparesNames' hchars]

/-- No entry has the name of the line that is just arriving. -/
theorem Rings.addr_ne_name (h : Rings o) (line : HeaderLine) :
    ∀ e ∈ o.ctrl.headers.entries, e.key.addr ≠ (line.name o.ctrl.blocks.length).addr := by
  intro e he
  have hle := (h.key_since e he).2
  rw [HeaderLine.name_addr]
  omega

theorem Chained.sameTest_name (h : Chained o o') (line : HeaderLine) :
    SameTest (Corresponds o.since o'.since) o.ctrl.headers o'.ctrl.headers
      (line.name o.ctrl.blocks.length) (line.name o'.ctrl.blocks.length) :=
  h.sameTest rfl rfl (h.stored.addr_ne_name line) (h.stored'.addr_ne_name line)

/-- The two lookups for a line find corresponding entries or nothing. -/
theorem Chained.sameOwner (h : Chained o o') (line : HeaderLine) : SameOwner line o o' := by
  have hget := h.table.entryGet (h.sameTest_name line)
  have hle := h.stored.since_le
  have hle' := h.stored'.since_le
  have hlength := h.length
  unfold SameOwner CurlData.owner
  rw [hget]
  cases o'.ctrl.headers.entryGet (line.name o'.ctrl.blocks.length) with
  | none =>
    simp only [Option.bind_none, HeaderLine.name_addr]
    omega
  | some ref =>
    simp only [Option.bind_some]
    have hat := h.table.entryAt ref
    generalize o.ctrl.headers.entryAt ref = e, o'.ctrl.headers.entryAt ref = e' at hat ⊢
    cases hat with
    | none =>
      simp only [HeaderLine.name_addr]
      omega
    | some hr => exact hr.distance

/-- A header line does the same to both tables. -/
theorem Chained.table_header (h : Chained o o') (hok : line.Allocated)
    (hs : line.isSpecial = false) :
    Related (Corresponds (o.step line).since (o'.step line).since) (o.step line).ctrl.headers
      (o'.step line).ctrl.headers := by
  have hafter : CurlData.AfterHeader line o.ctrl (o.ctrl.headerCallback line).1 :=
    (CurlData.headerCallback_header hs hok.2).1
  have hafter' : CurlData.AfterHeader line o'.ctrl (o'.ctrl.headerCallback line).1 :=
    (CurlData.headerCallback_header hs hok.2).1
  have hle := h.stored.since_le
  have hle' := h.stored'.since_le
  have hlength := h.length
  have htest := h.sameTest_name line
  have hget := h.table.entryGet htest
  rw [Observed.step_header hs, Observed.step_header hs]
  dsimp only
  cases hfound : o.ctrl.headers.entryGet (line.name o.ctrl.blocks.length) with
  | none =>
    -- both tables get an entry, and grow or not by their sizes
    rw [(hafter.new hfound).1, (hafter'.new (hget.symm.trans hfound)).1]
    refine h.table.hashmapPut_absent (fun _ _ hr => hr.hash) _ _ htest hfound ⟨?_, rfl, ?_⟩
    · show o.ctrl.blocks.length + 1 - o.since = o'.ctrl.blocks.length + 1 - o'.since
      omega
    · exact htest.hashKey
  | some ref =>
    obtain ⟨front, e, rest, hentries, hat, -, -⟩ := Hashmap.entryGet_some hfound
    obtain ⟨front', e', rest', hentries', hat', -, -⟩ :=
      Hashmap.entryGet_some (hget.symm.trans hfound)
    have hlt : e.value < o.ctrl.blocks.length :=
      (h.stored.value_lt (h.stored.ring e (by rw [hentries]; simp)).last_mem).2
    have hlt' : e'.value < o'.ctrl.blocks.length :=
      (h.stored'.value_lt (h.stored'.ring e' (by rw [hentries']; simp)).last_mem).2
    rw [(hafter.old hfound hat hlt).1, (hafter'.old (hget.symm.trans hfound) hat' hlt').1]
    exact h.table.setValue (fun _ _ hr => ⟨hr.distance, hr.chars, hr.hash⟩) ref

/-- A status line clears both tables, or neither. -/
theorem Chained.table_statusLine (h : Chained o o') (hok : line.Allocated)
    (ht : line.isStatusLine = true) :
    Related (Corresponds (o.step line).since (o'.step line).since) (o.step line).ctrl.headers
      (o'.step line).ctrl.headers := by
  cases hend : o.ctrl.state.seenHeaderEnd with
  | true =>
    have hend' : o'.ctrl.state.seenHeaderEnd = true := h.seenHeaderEnd.symm.trans hend
    rw [Observed.step_clears ht hend, Observed.step_clears ht hend',
      CurlData.headerCallback_statusLine ht hok.2 h.stored.bufSize_pos,
      CurlData.headerCallback_statusLine ht hok.2 h.stored'.bufSize_pos]
    show Related _ o.ctrl.beginResponse.headers o'.ctrl.beginResponse.headers
    rw [CurlData.beginResponse_headers, CurlData.beginResponse_headers, if_pos hend, if_pos hend']
    exact related_hashmapClear h.table.bucketCount
  | false =>
    have hend' : o'.ctrl.state.seenHeaderEnd = false := h.seenHeaderEnd.symm.trans hend
    rw [Observed.step_statusLine ht hend, Observed.step_statusLine ht hend',
      CurlData.headerCallback_statusLine ht hok.2 h.stored.bufSize_pos,
      CurlData.headerCallback_statusLine ht hok.2 h.stored'.bufSize_pos]
    show Related _ o.ctrl.beginResponse.headers o'.ctrl.beginResponse.headers
    rw [CurlData.beginResponse_headers, CurlData.beginResponse_headers,
      if_neg (by rw [hend]; decide), if_neg (by rw [hend']; decide)]
    exact h.table

/-- **One line keeps two handles with tables of one size alike**, unless it is a status line
in the middle of a response. -/
theorem Chained.step (h : Chained o o') (hok : line.Allocated)
    (hempty : line.isStatusLine = true →
      o.ctrl.state.seenHeaderEnd = true ∨ o.ctrl.headerPairCount = 0) :
    Chained (o.step line) (o'.step line) := by
  have hnames := h.comparesNames.step hok h.stored.bufSize_pos
  have hnames' := h.comparesNames'.step hok h.stored'.bufSize_pos
  cases hs : line.isSpecial with
  | false =>
    exact ⟨h.header h.stored h.stored' hok hs (h.sameOwner line), h.stored.step hok,
      h.stored'.step hok, hnames, hnames', h.table_header hok hs⟩
  | true =>
    cases ht : line.isStatusLine with
    | true =>
      exact ⟨h.statusLine h.stored h.stored' hok ht (hempty ht), h.stored.step hok,
        h.stored'.step hok, hnames, hnames', h.table_statusLine hok ht⟩
    | false =>
      refine ⟨h.terminator hs ht, h.stored.step hok, h.stored'.step hok, hnames, hnames', ?_⟩
      rw [Observed.step_terminator hs ht, Observed.step_terminator hs ht]
      exact h.table

end Observed
end Chttpc
