import Chttpc.HeaderRun
import Chttpc.Ring
import Mathlib.Data.List.Nodup
import Mathlib.Data.List.Perm.Subperm

/-!
# The rings of values in the header store

The values received under one entry of the map form a ring through their `ref`
pointers, held by the newest of them, which is the value of the entry.  `Rings`
is the invariant of the store: the ring of each entry runs through the blocks of
the accepted lines that were resolved to it, oldest first.  It holds for any
hash function and any comparison, since what it calls the owner of a line is
whatever entry the lookup came up with.

A line that finds no entry makes one, with a ring of its own (`Rings.header_new`);
a line that finds one is spliced into its ring and leaves every other ring alone
(`Rings.header_old`).  The table may be rebuilt in the first case, which permutes
the scan of the entries and no more.
-/

namespace Chttpc
open CircularList

namespace CurlData

section Pointers
variable (ctrl : CurlData)

theorem refOf_congr {a b : CurlData} (h : a.blocks = b.blocks) : a.refOf = b.refOf := by
  funext p
  rw [refOf, refOf, h]

theorem refOf_setRef (block p : Nat) (ref : Option Nat) :
    (ctrl.setRef block ref).refOf p =
      if p = block ∧ block < ctrl.blocks.length then ref else ctrl.refOf p := by
  simp only [refOf, setRef, List.getElem?_modify]
  by_cases hp : p = block
  · subst hp
    by_cases hlt : p < ctrl.blocks.length
    · simp [hlt]
    · simp [hlt]
  · simp [hp, Ne.symm hp]

theorem refOf_copyLine (line : HeaderLine) {p : Nat} (hp : p < ctrl.blocks.length) :
    (ctrl.copyLine line).refOf p = ctrl.refOf p := by
  simp only [refOf, copyLine, List.getElem?_append_left hp]

/-- A ring has no more nodes than there are blocks. -/
theorem length_le_of_isRing {ctrl : CurlData} {blocks : List Nat} {last : Nat}
    (h : IsRing ctrl.refOf blocks last) : blocks.length ≤ ctrl.blocks.length := by
  have hsub : blocks ⊆ List.range ctrl.blocks.length := by
    intro b hb
    have hsome := h.next_isSome b hb
    rw [List.mem_range]
    apply Classical.byContradiction
    intro hge
    rw [refOf, List.getElem?_eq_none (Nat.le_of_not_lt hge)] at hsome
    cases hsome
  simpa using (List.subperm_of_subset h.nodup hsub).length_le

@[simp] theorem length_copyLine (line : HeaderLine) :
    (ctrl.copyLine line).blocks.length = ctrl.blocks.length + 1 := by
  simp [copyLine]

@[simp] theorem length_setRef (block : Nat) (ref : Option Nat) :
    (ctrl.setRef block ref).blocks.length = ctrl.blocks.length := by
  simp [setRef]

/-- The text of the value in a block. -/
def valueText (block : Nat) : Option (List UInt8) := ctrl.blocks[block]?.map (·.header)

theorem valueText_setRef (block p : Nat) (ref : Option Nat) :
    (ctrl.setRef block ref).valueText p = ctrl.valueText p := by
  simp only [valueText, setRef, List.getElem?_modify]
  cases ctrl.blocks[p]? with
  | none => rfl
  | some hdr =>
    simp only [Option.map_some, Option.map_eq_map, Option.some.injEq]
    split <;> rfl

theorem valueText_copyLine (line : HeaderLine) {p : Nat} (hp : p < ctrl.blocks.length) :
    (ctrl.copyLine line).valueText p = ctrl.valueText p := by
  simp only [valueText, copyLine, List.getElem?_append_left hp]

theorem valueText_copyLine_new (line : HeaderLine) :
    (ctrl.copyLine line).valueText ctrl.blocks.length = some line.value := by
  simp [valueText, copyLine]

end Pointers

section Store
variable {ctrl : CurlData} {line : HeaderLine} {name : CString} {block : Nat}

theorem storeHeader_new (h : ctrl.headers.entryGet name = none) :
    ctrl.storeHeader line name block =
      (({ ctrl with
          headers := (ctrl.headers.hashmapPut name line.entryOk line.callocOk block).1 }).setRef
        block (some block), name) := by
  simp [storeHeader, h]

theorem storeHeader_old {old : EntryRef} {entry : Entry CString Nat}
    (h : ctrl.headers.entryGet name = some old) (he : ctrl.headers.entryAt old = some entry) :
    ctrl.storeHeader line name block =
      ({ (ctrl.setRef block (ctrl.refOf entry.value)).setRef entry.value (some block) with
          headers := ctrl.headers.setValue old block }, entry.key) := by
  simp [storeHeader, h, he, setRef]

/-- The blocks after a header line that has found no entry. -/
theorem AfterHeader.new {ctrl' : CurlData} (h : AfterHeader line ctrl ctrl')
    (hget : ctrl.headers.entryGet (line.name ctrl.blocks.length) = none) :
    ctrl'.headers = (ctrl.headers.hashmapPut (line.name ctrl.blocks.length) line.entryOk
        line.callocOk ctrl.blocks.length).1 ∧
      ctrl'.blocks.length = ctrl.blocks.length + 1 ∧
      ctrl'.refOf ctrl.blocks.length = some ctrl.blocks.length ∧
      (∀ p < ctrl.blocks.length, ctrl'.refOf p = ctrl.refOf p) := by
  have hheaders := h.headers
  have hblocks := h.blocks
  have hget' : (ctrl.copyLine line).headers.entryGet (line.name ctrl.blocks.length) = none := hget
  rw [storeHeader_new hget'] at hheaders hblocks
  refine ⟨hheaders, ?_, ?_, ?_⟩
  · rw [hblocks]; simp [copyLine, setRef]
  · rw [refOf_congr hblocks, refOf_setRef]; simp [copyLine]
  · intro p hp
    rw [refOf_congr hblocks, refOf_setRef, if_neg (by simp; omega)]
    exact refOf_copyLine ctrl line hp

/-- The blocks after a header line that has found an entry. -/
theorem AfterHeader.old {ctrl' : CurlData} (h : AfterHeader line ctrl ctrl') {old : EntryRef}
    {entry : Entry CString Nat}
    (hget : ctrl.headers.entryGet (line.name ctrl.blocks.length) = some old)
    (hat : ctrl.headers.entryAt old = some entry) (hlt : entry.value < ctrl.blocks.length) :
    ctrl'.headers = ctrl.headers.setValue old ctrl.blocks.length ∧
      ctrl'.blocks.length = ctrl.blocks.length + 1 ∧
      ctrl'.refOf ctrl.blocks.length = ctrl.refOf entry.value ∧
      ctrl'.refOf entry.value = some ctrl.blocks.length ∧
      (∀ p < ctrl.blocks.length, p ≠ entry.value → ctrl'.refOf p = ctrl.refOf p) := by
  have hheaders := h.headers
  have hblocks := h.blocks
  have hget' : (ctrl.copyLine line).headers.entryGet (line.name ctrl.blocks.length) = some old :=
    hget
  rw [storeHeader_old hget' hat] at hheaders hblocks
  have href : ctrl'.refOf = (((ctrl.copyLine line).setRef ctrl.blocks.length
      ((ctrl.copyLine line).refOf entry.value)).setRef entry.value
        (some ctrl.blocks.length)).refOf := refOf_congr hblocks
  have hne : ctrl.blocks.length ≠ entry.value := Nat.ne_of_gt hlt
  refine ⟨hheaders, ?_, ?_, ?_, ?_⟩
  · rw [hblocks]; simp [copyLine, setRef]
  · rw [href, refOf_setRef, if_neg (by simp [hne]), refOf_setRef, if_pos (by simp),
      refOf_copyLine ctrl line hlt]
  · rw [href, refOf_setRef, if_pos (by simp; omega)]
  · intro p hp hpe
    rw [href, refOf_setRef, if_neg (by simp [hpe]), refOf_setRef, if_neg (by simp; omega)]
    exact refOf_copyLine ctrl line hp

/-- Entering a line adds its block, and the texts stay. -/
theorem length_blocks_storeHeader :
    ((ctrl.copyLine line).storeHeader line name block).1.blocks.length = ctrl.blocks.length + 1 := by
  unfold storeHeader
  split
  · simp [copyLine, setRef]
  · split <;> simp [copyLine, setRef]

theorem valueText_storeHeader (p : Nat) :
    (ctrl.storeHeader line name block).1.valueText p = ctrl.valueText p := by
  unfold storeHeader
  split
  · exact valueText_setRef _ _ _ _
  · split
    · rfl
    · exact (valueText_setRef _ _ _ _).trans (valueText_setRef _ _ _ _)

theorem AfterHeader.length_blocks {ctrl' : CurlData} (h : AfterHeader line ctrl ctrl') :
    ctrl'.blocks.length = ctrl.blocks.length + 1 := by
  rw [h.blocks]
  exact length_blocks_storeHeader

/-- The name a header line is entered under. -/
theorem storeHeader_name (block : Nat) :
    ((ctrl.copyLine line).storeHeader line (line.name ctrl.blocks.length) block).2 =
      ctrl.owner line := by
  unfold storeHeader owner
  cases hget : ctrl.headers.entryGet (line.name ctrl.blocks.length) with
  | none => simp [copyLine, hget]
  | some old => cases hat : ctrl.headers.entryAt old <;> simp [copyLine, hget, hat]

/-- The texts after a header line. -/
theorem AfterHeader.valueText {ctrl' : CurlData} (h : AfterHeader line ctrl ctrl') :
    (∀ p < ctrl.blocks.length, ctrl'.valueText p = ctrl.valueText p) ∧
      ctrl'.valueText ctrl.blocks.length = some line.value := by
  have hstored : ∀ p, ctrl'.valueText p = (ctrl.copyLine line).valueText p := by
    intro p
    rw [CurlData.valueText, h.blocks]
    exact valueText_storeHeader p
  exact ⟨fun p hp => (hstored p).trans (valueText_copyLine ctrl line hp),
    (hstored _).trans (valueText_copyLine_new ctrl line)⟩

end Store
end CurlData

/-- **The invariant of the header store.** -/
structure Rings (o : Observed) : Prop where
  wellFormed : o.ctrl.headers.WellFormed
  since_le : o.since ≤ o.ctrl.blocks.length
  keys : (o.ctrl.headers.entries.map (·.key.addr)).Nodup
  key_line : ∀ e ∈ o.ctrl.headers.entries, ∃ a ∈ o.accepted, e.key = a.line.name a.block
  sorted : (o.accepted.map (·.block)).Pairwise (· < ·)
  block_since : ∀ a ∈ o.accepted, o.since ≤ a.block ∧ a.block < o.ctrl.blocks.length
  text : ∀ a ∈ o.accepted, o.ctrl.valueText a.block = some a.line.value
  owned : ∀ a ∈ o.accepted, ∃ e ∈ o.ctrl.headers.entries, e.key.addr = a.owner ∧
    e.hash = o.ctrl.headers.hashKey (a.line.name a.block)
  ring : ∀ e ∈ o.ctrl.headers.entries, IsRing o.ctrl.refOf (o.valuesOf e.key.addr) e.value

namespace Rings
variable {o : Observed} {line : HeaderLine}

theorem start {ctrl : CurlData} (h : ctrl.IsReset) : Rings (.start ctrl) where
  wellFormed := h.wellFormed
  since_le := Nat.le_refl _
  keys := by simp [Observed.start, h.entries]
  key_line := by simp [Observed.start, h.entries]
  sorted := by simp [Observed.start]
  block_since := by simp [Observed.start]
  text := by simp [Observed.start]
  owned := by simp [Observed.start]
  ring := by simp [Observed.start, h.entries]

theorem key_since (h : Rings o) : ∀ e ∈ o.ctrl.headers.entries,
    o.since < e.key.addr ∧ e.key.addr ≤ o.ctrl.blocks.length := by
  intro e he
  obtain ⟨a, ha, hkey⟩ := h.key_line e he
  obtain ⟨h1, h2⟩ := h.block_since a ha
  have haddr : e.key.addr = a.block + 1 := by rw [hkey]; rfl
  omega

theorem owner_since (h : Rings o) (line : HeaderLine) : o.since < (o.ctrl.owner line).addr := by
  have hle := h.since_le
  unfold CurlData.owner
  split
  · rename_i e he
    obtain ⟨ref, hget, hat⟩ := Option.bind_eq_some_iff.mp he
    obtain ⟨front, x, rest, hentries, hx, -, -⟩ := Hashmap.entryGet_some hget
    cases hat.symm.trans hx
    exact (h.key_since e (by rw [hentries]; simp)).1
  · rw [HeaderLine.name_addr]
    omega

theorem mem_valuesOf {addr b : Nat} :
    b ∈ o.valuesOf addr ↔ ∃ a ∈ o.accepted, a.owner = addr ∧ a.block = b := by
  simp [Observed.valuesOf, and_assoc]

theorem value_lt (h : Rings o) {addr b : Nat} (hb : b ∈ o.valuesOf addr) :
    o.since ≤ b ∧ b < o.ctrl.blocks.length := by
  obtain ⟨a, ha, -, rfl⟩ := mem_valuesOf.mp hb
  exact h.block_since a ha

/-- A lookup answers with a value received since the last clearing. -/
theorem hashmapGet_since (h : Rings o) {key : CString} {found : Nat}
    (hget : o.ctrl.headers.hashmapGet key = some found) : o.since ≤ found := by
  obtain ⟨e, he, -, rfl⟩ := Hashmap.exists_of_hashmapGet hget
  exact (h.value_lt (h.ring e he).last_mem).1

/-- A block belongs to one accepted line. -/
theorem accepted_unique (h : Rings o) {a b : Accepted} (ha : a ∈ o.accepted) (hb : b ∈ o.accepted)
    (hblock : a.block = b.block) : a = b :=
  List.inj_on_of_nodup_map (h.sorted.imp fun hlt => Nat.ne_of_lt hlt) ha hb hblock

/-- The rings of different entries share no block. -/
theorem disjoint (h : Rings o) {x y b : Nat} (hx : b ∈ o.valuesOf x) (hy : b ∈ o.valuesOf y) :
    x = y := by
  obtain ⟨a, ha, rfl, hab⟩ := mem_valuesOf.mp hx
  obtain ⟨a', ha', rfl, hab'⟩ := mem_valuesOf.mp hy
  rw [h.accepted_unique ha ha' (hab.trans hab'.symm)]

/-! ## One line -/

/-- The invariant depends on the map, the ledger and the blocks so far. -/
theorem congr {o' : Observed} (h : Rings o) (hheaders : o'.ctrl.headers = o.ctrl.headers)
    (hsince : o'.since = o.since) (haccepted : o'.accepted = o.accepted)
    (hlen : o.ctrl.blocks.length ≤ o'.ctrl.blocks.length)
    (hblocks : ∀ p < o.ctrl.blocks.length, o'.ctrl.blocks[p]? = o.ctrl.blocks[p]?) :
    Rings o' := by
  obtain ⟨ctrl', since, accepted⟩ := o'
  dsimp only at *
  subst hsince haccepted
  refine ⟨hheaders ▸ h.wellFormed, Nat.le_trans h.since_le hlen, hheaders ▸ h.keys,
    hheaders ▸ h.key_line, h.sorted, ?_, ?_, hheaders ▸ h.owned, ?_⟩
  · intro a ha
    obtain ⟨h1, h2⟩ := h.block_since a ha
    exact ⟨h1, Nat.lt_of_lt_of_le h2 hlen⟩
  · intro a ha
    rw [← h.text a ha, CurlData.valueText, CurlData.valueText, hblocks _ (h.block_since a ha).2]
  · intro e he
    rw [hheaders] at he
    refine (h.ring e he).congr fun b hb => ?_
    rw [CurlData.refOf, CurlData.refOf, hblocks _ (h.value_lt hb).2]

theorem terminator (h : Rings o) (hs : line.isSpecial = true) (ht : line.isStatusLine = false) :
    Rings (o.step line) := by
  rw [Observed.step_terminator hs ht]
  exact h.congr rfl rfl rfl (Nat.le_refl _) fun _ _ => rfl

/-- A status line that clears the headers leaves no entry and no ring. -/
theorem clears (h : Rings o) (hs : line.isStatusLine = true) (hok : line.Allocated)
    (hsize : 0 < o.ctrl.headerBufSize) (hend : o.ctrl.state.seenHeaderEnd = true) :
    Rings (o.step line) := by
  rw [Observed.step_clears hs hend, CurlData.headerCallback_statusLine hs hok.2 hsize]
  have hheaders : o.ctrl.beginResponse.headers = o.ctrl.headers.hashmapClear := by
    rw [CurlData.beginResponse_headers, if_pos hend]
  refine ⟨?_, ?_, ?_, ?_, by simp, by simp, by simp, by simp, ?_⟩
  · exact hheaders ▸ h.wellFormed.hashmapClear
  · simp
  · simp [CurlData.copyLine, hheaders]
  · simp [CurlData.copyLine, hheaders]
  · simp [CurlData.copyLine, hheaders]

/-- A status line inside a response adds a block that no ring contains. -/
theorem statusLine (h : Rings o) (hs : line.isStatusLine = true) (hok : line.Allocated)
    (hsize : 0 < o.ctrl.headerBufSize) (hend : o.ctrl.state.seenHeaderEnd = false) :
    Rings (o.step line) := by
  rw [Observed.step_statusLine hs hend, CurlData.headerCallback_statusLine hs hok.2 hsize]
  have hbegin : o.ctrl.beginResponse = o.ctrl := by simp [CurlData.beginResponse, hend]
  rw [hbegin]
  refine h.congr rfl rfl rfl (by simp) fun p hp => ?_
  simp [CurlData.copyLine, List.getElem?_append_left hp]

/-- What an accepted line adds to the ledger. -/
theorem ledger (h : Rings o) {ctrl' : CurlData} (addr : Nat)
    (hlen : ctrl'.blocks.length = o.ctrl.blocks.length + 1)
    (hold : ∀ p < o.ctrl.blocks.length, ctrl'.valueText p = o.ctrl.valueText p)
    (hnew : ctrl'.valueText o.ctrl.blocks.length = some line.value) :
    let accepted' := o.accepted ++ [⟨line, o.ctrl.blocks.length, addr⟩]
    (accepted'.map (·.block)).Pairwise (· < ·) ∧
      (∀ a ∈ accepted', o.since ≤ a.block ∧ a.block < ctrl'.blocks.length) ∧
      ∀ a ∈ accepted', ctrl'.valueText a.block = some a.line.value := by
  refine ⟨?_, ?_, ?_⟩
  · rw [List.map_append]
    refine List.pairwise_append.mpr ⟨h.sorted, by simp, ?_⟩
    intro b hb n hn
    obtain ⟨a, ha, rfl⟩ := List.mem_map.mp hb
    have hlt := (h.block_since a ha).2
    simp only [List.map_cons, List.map_nil, List.mem_singleton] at hn
    exact hn ▸ hlt
  · intro a ha
    rcases List.mem_append.mp ha with ha | ha
    · obtain ⟨h1, h2⟩ := h.block_since a ha
      exact ⟨h1, by omega⟩
    · have hsince := h.since_le
      rw [List.mem_singleton.mp ha]
      exact ⟨hsince, by simp [hlen]⟩
  · intro a ha
    rcases List.mem_append.mp ha with ha | ha
    · rw [hold _ (h.block_since a ha).2, h.text a ha]
    · rw [List.mem_singleton.mp ha, hnew]

/-- The values of an entry after a line resolved to the key at `addr`. -/
theorem valuesOf_append (accepted : List Accepted) (ctrl' : CurlData) (since block addr x : Nat) :
    (Observed.mk ctrl' since (accepted ++ [⟨line, block, addr⟩])).valuesOf x =
      (Observed.mk ctrl' since accepted).valuesOf x ++ if addr = x then [block] else [] := by
  simp only [Observed.valuesOf, List.filter_append, List.map_append]
  congr 1
  by_cases hx : addr = x <;> simp [hx]

/-- A line that finds no entry makes one, with a ring of its own. -/
theorem header_new (h : Rings o) (hs : line.isSpecial = false) (hok : line.Allocated)
    (hget : o.ctrl.headers.entryGet (line.name o.ctrl.blocks.length) = none) :
    Rings (o.step line) := by
  have hafter : CurlData.AfterHeader line o.ctrl (o.ctrl.headerCallback line).1 :=
    (CurlData.headerCallback_header hs hok.2).1
  have howner : o.ctrl.owner line = line.name o.ctrl.blocks.length := by
    simp [CurlData.owner, hget]
  rw [Observed.step_header hs, howner]
  generalize (o.ctrl.headerCallback line).1 = ctrl' at hafter
  obtain ⟨hheaders, hlen, hself, href⟩ := hafter.new hget
  obtain ⟨htext, htextNew⟩ := hafter.valueText
  rw [hok.1] at hheaders
  obtain ⟨hwf, hperm, hhash, -⟩ := Hashmap.hashmapPut_absent line.callocOk
    o.ctrl.blocks.length h.wellFormed hget
  rw [← hheaders] at hwf hperm hhash
  obtain ⟨hsorted, hsince, hvalue⟩ := h.ledger (o.ctrl.blocks.length + 1) hlen htext htextNew
  have hkey := h.key_since
  -- The key of the new entry lies in a block behind every other key.
  have hfresh : ∀ e ∈ o.ctrl.headers.entries, o.ctrl.blocks.length + 1 ≠ e.key.addr :=
    fun e he heq => by have := (hkey e he).2; omega
  have hnone : o.valuesOf (o.ctrl.blocks.length + 1) = [] := by
    refine List.eq_nil_iff_forall_not_mem.mpr fun b hb => ?_
    obtain ⟨a, ha, howner, -⟩ := mem_valuesOf.mp hb
    obtain ⟨e, he, haddr, -⟩ := h.owned a ha
    exact hfresh e he (howner.symm.trans haddr.symm)
  refine ⟨hwf, ?_, ?_, ?_, hsorted, hsince, hvalue, ?_, ?_⟩
  · have := h.since_le
    show o.since ≤ ctrl'.blocks.length
    omega
  · refine ((hperm.map (·.key.addr)).nodup_iff).mpr ?_
    rw [List.map_cons, List.nodup_cons]
    refine ⟨fun hmem => ?_, h.keys⟩
    obtain ⟨e, he, heq⟩ := List.mem_map.mp hmem
    exact hfresh e he heq.symm
  · intro e he
    rcases List.mem_cons.mp (hperm.mem_iff.mp he) with rfl | he
    · exact ⟨_, List.mem_append_right _ (List.mem_singleton_self _), rfl⟩
    · obtain ⟨a, ha, heq⟩ := h.key_line e he
      exact ⟨a, List.mem_append_left _ ha, heq⟩
  · have hhashKey : ∀ k, ctrl'.headers.hashKey k = o.ctrl.headers.hashKey k := by
      intro k; simp [Hashmap.hashKey, hhash]
    intro a ha
    simp only [hhashKey]
    rcases List.mem_append.mp ha with ha | ha
    · obtain ⟨e, he, howned⟩ := h.owned a ha
      exact ⟨e, hperm.mem_iff.mpr (List.mem_cons_of_mem _ he), howned⟩
    · rw [List.mem_singleton.mp ha]
      exact ⟨_, hperm.mem_iff.mpr List.mem_cons_self, rfl, rfl⟩
  · intro e he
    rw [valuesOf_append, HeaderLine.name_addr]
    rcases List.mem_cons.mp (hperm.mem_iff.mp he) with rfl | he
    · have hring : o.valuesOf (o.ctrl.blocks.length + 1) ++ [o.ctrl.blocks.length] =
          [o.ctrl.blocks.length] := by rw [hnone]; rfl
      rw [Hashmap.newEntry, HeaderLine.name_addr, if_pos rfl]
      exact hring.symm ▸ IsRing.singleton hself
    · rw [if_neg (hfresh e he), List.append_nil]
      exact (h.ring e he).congr fun b hb => href b (h.value_lt hb).2

/-! In the scan of the entries one of them gets another value. -/

section Scan
variable {front rest entries entries' : List (Entry CString Nat)} {e x : Entry CString Nat}
  {value : Nat}

/-- The keys and hashes are those from before. -/
theorem keys_of_set (hentries : entries = front ++ e :: rest)
    (hentries' : entries' = front ++ { e with value } :: rest) (hx : x ∈ entries) :
    ∃ y ∈ entries', y.key = x.key ∧ y.hash = x.hash := by
  rw [hentries] at hx
  rw [hentries']
  rcases List.mem_append.mp hx with hx | hx
  · exact ⟨x, List.mem_append_left _ hx, rfl, rfl⟩
  · rcases List.mem_cons.mp hx with rfl | hx
    · exact ⟨_, List.mem_append_right _ List.mem_cons_self, rfl, rfl⟩
    · exact ⟨x, List.mem_append_right _ (List.mem_cons_of_mem _ hx), rfl, rfl⟩

theorem mem_of_set (hx : x ∈ front ++ { e with value } :: rest) :
    x = { e with value } ∨ x ∈ front ++ rest := by
  simpa [or_left_comm] using hx

/-- The others have other keys. -/
theorem others_of_nodup (hentries : entries = front ++ e :: rest)
    (hkeys : (entries.map (·.key.addr)).Nodup) (hx : x ∈ front ++ rest) :
    x ∈ entries ∧ e.key.addr ≠ x.key.addr := by
  rw [hentries, List.map_append, List.map_cons, List.nodup_middle, List.nodup_cons,
    ← List.map_append] at hkeys
  refine ⟨?_, fun heq => hkeys.1 (heq ▸ List.mem_map_of_mem hx)⟩
  rw [hentries]
  rcases List.mem_append.mp hx with hx | hx
  · exact List.mem_append_left _ hx
  · exact List.mem_append_right _ (List.mem_cons_of_mem _ hx)

end Scan

/-- A line that finds an entry is spliced into its ring, and every other ring
stays as it is. -/
theorem header_old (h : Rings o) (hs : line.isSpecial = false) (hok : line.Allocated)
    {old : EntryRef} (hget : o.ctrl.headers.entryGet (line.name o.ctrl.blocks.length) = some old) :
    Rings (o.step line) := by
  obtain ⟨front, e, rest, hentries, hat, hfound, hset⟩ := Hashmap.entryGet_some hget
  have he : e ∈ o.ctrl.headers.entries := by rw [hentries]; simp
  have hring := h.ring e he
  have hlt : e.value < o.ctrl.blocks.length := (h.value_lt hring.last_mem).2
  have hafter : CurlData.AfterHeader line o.ctrl (o.ctrl.headerCallback line).1 :=
    (CurlData.headerCallback_header hs hok.2).1
  have howner : o.ctrl.owner line = e.key := by simp [CurlData.owner, hget, hat]
  rw [Observed.step_header hs, howner]
  generalize (o.ctrl.headerCallback line).1 = ctrl' at hafter
  obtain ⟨hheaders, hlen, hnew, hlast, href⟩ := hafter.old hget hat hlt
  obtain ⟨htext, htextNew⟩ := hafter.valueText
  obtain ⟨hsorted, hsince, hvalue⟩ := h.ledger e.key.addr hlen htext htextNew
  have hentries' := hset o.ctrl.blocks.length
  rw [← hheaders] at hentries'
  have hhashKey : ∀ k, ctrl'.headers.hashKey k = o.ctrl.headers.hashKey k := by
    intro k; rw [hheaders]; rfl
  have hsplit : ∀ x ∈ ctrl'.headers.entries,
      x = { e with value := o.ctrl.blocks.length } ∨ x ∈ front ++ rest :=
    fun x hx => mem_of_set (hentries' ▸ hx)
  have hkey := (h.key_since e he).2
  refine ⟨?_, ?_, ?_, ?_, hsorted, hsince, hvalue, ?_, ?_⟩
  · exact hheaders ▸ h.wellFormed.setValue hget _
  · have := h.since_le
    show o.since ≤ ctrl'.blocks.length
    omega
  · have hkeys := h.keys
    rw [hentries] at hkeys
    show (ctrl'.headers.entries.map _).Nodup
    rw [hentries']
    simpa using hkeys
  · intro x hx
    have hold : ∃ y ∈ o.ctrl.headers.entries, x.key = y.key := by
      rcases hsplit x hx with rfl | hx
      · exact ⟨e, he, rfl⟩
      · exact ⟨x, (others_of_nodup hentries h.keys hx).1, rfl⟩
    obtain ⟨y, hy, hxy⟩ := hold
    obtain ⟨a, ha, heq⟩ := h.key_line y hy
    exact ⟨a, List.mem_append_left _ ha, hxy.trans heq⟩
  · intro a ha
    simp only [hhashKey]
    rcases List.mem_append.mp ha with ha | ha
    · obtain ⟨x, hx, haddr, hhash⟩ := h.owned a ha
      obtain ⟨y, hy, hyk, hyh⟩ := keys_of_set hentries hentries' hx
      exact ⟨y, hy, hyk ▸ haddr, hyh.trans hhash⟩
    · obtain ⟨y, hy, hyk, hyh⟩ := keys_of_set hentries hentries' he
      have hne : (e.key == line.name o.ctrl.blocks.length) = false := by
        rw [CString.beq_eq, HeaderLine.name_addr, beq_eq_false_iff_ne]
        omega
      rw [List.mem_singleton.mp ha]
      exact ⟨y, hy, congrArg CString.addr hyk, hyh.trans (Hashmap.hash_of_found hfound hne)⟩
  · intro x hx
    rw [valuesOf_append]
    rcases hsplit x hx with rfl | hx
    · rw [if_pos rfl]
      refine hring.splice (fun hmem => ?_) hnew hlast fun p hp hpe =>
        href p (h.value_lt hp).2 hpe
      exact Nat.lt_irrefl _ (h.value_lt hmem).2
    · obtain ⟨hx, hne⟩ := others_of_nodup hentries h.keys hx
      rw [if_neg hne, List.append_nil]
      refine (h.ring x hx).congr fun b hb => href b (h.value_lt hb).2 fun heq => ?_
      exact hne (h.disjoint (heq ▸ hring.last_mem) hb)

/-- **Every line keeps the invariant.** -/
theorem step (h : Rings o) (hok : line.Allocated) (hsize : 0 < o.ctrl.headerBufSize) :
    Rings (o.step line) := by
  cases hs : line.isSpecial with
  | true =>
    cases ht : line.isStatusLine with
    | true =>
      cases hend : o.ctrl.state.seenHeaderEnd with
      | true => exact h.clears ht hok hsize hend
      | false => exact h.statusLine ht hok hsize hend
    | false => exact h.terminator hs ht
  | false =>
    cases hget : o.ctrl.headers.entryGet (line.name o.ctrl.blocks.length) with
    | none => exact h.header_new hs hok hget
    | some old => exact h.header_old hs hok hget

end Rings

/-- The invariant with the bounds that keep the pair array writable. -/
structure Stored (o : Observed) : Prop extends Rings o where
  count_lt : o.ctrl.headerPairCount < 2 ^ 16
  bufSize_pos : 0 < o.ctrl.headerBufSize
  older : ∀ i block, o.ctrl.headerPairs i = some (.value block) → block < o.ctrl.blocks.length

namespace Stored
variable {o : Observed} {line : HeaderLine}

theorem start {ctrl : CurlData} (h : ctrl.IsReset) : Stored (.start ctrl) :=
  ⟨Rings.start h, by simp [Observed.start, h.headerPairCount], h.headerBufSize, h.older⟩

theorem step (h : Stored o) (hok : line.Allocated) : Stored (o.step line) := by
  have hcount := h.count_lt
  have hsize := h.bufSize_pos
  have hrings := h.toRings.step hok hsize
  cases hs : line.isSpecial with
  | true =>
    cases ht : line.isStatusLine with
    | true =>
      refine ⟨hrings, ?_, ?_, ?_⟩
      all_goals rw [Observed.step_ctrl, CurlData.headerCallback_statusLine ht hok.2 hsize]
      · exact Nat.mod_lt _ (by decide)
      · exact Nat.lt_of_lt_of_eq hsize CurlData.beginResponse_headerBufSize.symm
      · intro i block hi
        dsimp only at hi
        rw [CurlData.length_copyLine, CurlData.beginResponse_blocks]
        split at hi
        · cases hi; omega
        · split at hi
          · cases hi
          · exact Nat.lt_succ_of_lt (h.older i block hi)
    | false =>
      refine ⟨hrings, ?_, ?_, ?_⟩
      all_goals rw [Observed.step_ctrl, CurlData.headerCallback_terminator hs ht]
      · exact hcount
      · exact hsize
      · exact h.older
  | false =>
    have hafter : CurlData.AfterHeader line o.ctrl (o.ctrl.headerCallback line).1 :=
      (CurlData.headerCallback_header hs hok.2).1
    refine ⟨hrings, ?_, ?_, ?_⟩
    all_goals rw [Observed.step_ctrl]
    · rw [hafter.headerPairCount]
      exact Nat.mod_lt _ (by decide)
    · rw [hafter.headerBufSize]
      split
      · exact hsize
      · rw [Nat.mod_eq_of_lt (by omega)]
        omega
    · intro i block hi
      rw [hafter.headerPairs] at hi
      rw [hafter.length_blocks]
      dsimp only at hi
      split at hi
      · cases hi; omega
      · split at hi
        · cases hi
        · exact Nat.lt_succ_of_lt (h.older i block hi)

theorem run_from {o : Observed} (h : Stored o) {lines : List HeaderLine}
    (hok : ∀ line ∈ lines, line.Allocated) : Stored (o.run lines) :=
  Runs.run_invariant Observed.step (fun _ _ ho hl => ho.step hl) lines _ h hok

/-- **The invariant holds after every run of `header_callback`.** -/
theorem run {ctrl : CurlData} (h : ctrl.IsReset) {lines : List HeaderLine}
    (hok : ∀ line ∈ lines, line.Allocated) : Stored ((Observed.start ctrl).run lines) :=
  (start h).run_from hok

end Stored

namespace Rings
variable {o : Observed}

/-- The `do … while` traversal of the ring of an entry comes back to its start
after the values resolved to that entry, oldest first. -/
theorem walk_ring (h : Rings o) {e : Entry CString Nat} (he : e ∈ o.ctrl.headers.entries) :
    ∃ first, o.ctrl.refOf e.value = some first ∧
      walk o.ctrl.refOf first o.ctrl.blocks.length first = some (o.valuesOf e.key.addr) :=
  (h.ring e he).walk_eq (CurlData.length_le_of_isRing (h.ring e he))

theorem entries_nodup (h : Rings o) : o.ctrl.headers.entries.Nodup :=
  List.Nodup.of_map _ h.keys

/-- Every accepted line lies in the ring of one entry and no other. -/
theorem existsUnique_ring (h : Rings o) {a : Accepted} (ha : a ∈ o.accepted) :
    ∃! e, e ∈ o.ctrl.headers.entries ∧ a.block ∈ o.valuesOf e.key.addr := by
  obtain ⟨e, he, haddr, -⟩ := h.owned a ha
  have hmem : a.block ∈ o.valuesOf e.key.addr := mem_valuesOf.mpr ⟨a, ha, haddr.symm, rfl⟩
  refine ⟨e, ⟨he, hmem⟩, fun e' he' => ?_⟩
  exact List.inj_on_of_nodup_map h.keys he'.1 he (h.disjoint he'.2 hmem)

end Rings

/-- **The rings of the header store**, after any run of `header_callback` from a
reset handle, for any hash function and any comparison in the map: from the value
of each entry the `ref` pointers lead back to their start through exactly the
accepted lines resolved to that entry, in the order of their arrival and ending
with the value; different entries share no value; every accepted line is in one
ring; and the scan of the buckets meets `size` entries, each once. -/
theorem value_rings {ctrl : CurlData} (h : ctrl.IsReset) (lines : List HeaderLine)
    (hok : ∀ line ∈ lines, line.Allocated) :
    let o := (Observed.start ctrl).run lines
    o.ctrl = ctrl.receive lines ∧
      (∀ e ∈ o.ctrl.headers.entries,
        (∃ first, o.ctrl.refOf e.value = some first ∧
          walk o.ctrl.refOf first o.ctrl.blocks.length first = some (o.valuesOf e.key.addr)) ∧
        (o.valuesOf e.key.addr).Nodup ∧ (o.valuesOf e.key.addr).getLast? = some e.value) ∧
      (∀ e ∈ o.ctrl.headers.entries, ∀ e' ∈ o.ctrl.headers.entries, e ≠ e' →
        (o.valuesOf e.key.addr).Disjoint (o.valuesOf e'.key.addr)) ∧
      (∀ a ∈ o.accepted,
        ∃! e, e ∈ o.ctrl.headers.entries ∧ a.block ∈ o.valuesOf e.key.addr) ∧
      o.ctrl.headers.size = o.ctrl.headers.entries.length ∧ o.ctrl.headers.entries.Nodup := by
  intro o
  have ho : Rings o := (Stored.run h hok).toRings
  refine ⟨Observed.run_ctrl _ _, ?_, ?_, ?_, ho.wellFormed.size_eq, ho.entries_nodup⟩
  · exact fun e he => ⟨ho.walk_ring he, (ho.ring e he).nodup, (ho.ring e he).newest⟩
  · intro e he e' he' hne b hb hb'
    exact hne (List.inj_on_of_nodup_map ho.keys he he' (ho.disjoint hb hb'))
  · exact fun a ha => ho.existsUnique_ring ha

/-- A map in which every name has one hash and equals every other keeps all values
in one ring. -/
theorem value_rings_merged :
    let ctrl := { nativeCreate with
      headers := Hashmap.hashmapCreate 32 HEADER_BUF_SIZE_DEFAULT (fun _ => 0) (fun _ _ => true) }
    let lines := [.ofBytes (ascii "a:1\r\n"), .ofBytes (ascii "b:2\r\n")]
    (ctrl.receive lines).headers.size = (ctrl.receive lines).headers.entries.length := by
  intro ctrl lines
  have hreset : ctrl.IsReset :=
    ⟨Hashmap.wellFormed_hashmapCreate _ _ _ _, rfl, rfl, rfl, by decide, fun _ _ h => nomatch h⟩
  have hrings := value_rings hreset lines (by simp [lines, HeaderLine.Allocated, HeaderLine.ofBytes])
  exact hrings.1 ▸ hrings.2.2.2.2.1

end Chttpc
