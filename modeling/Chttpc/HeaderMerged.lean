import Chttpc.HeaderTwins

/-!
# Names that share an entry

Lines whose names have one hash share an entry, if the comparison takes each for equal to
the ones before it (`Merges`).  Then no two entries have one hash (`Merged`), a lookup has
one entry to find wherever the table keeps it, and which entry a line is resolved to is
read off the lines that have arrived (`Merged.owner_eq`).

The second half compares two runs from handles that have been reset.  The lines are those
of responses that follow each other (`Responses`), and only the last head matters for the
names: a status line starts both handles afresh.
-/

namespace Chttpc
open Hashmap

/-! ## One entry for each hash -/

/-- The hash that the table keeps for the name of the line. -/
def HeaderLine.hash (line : HeaderLine) : BitVec 32 := nativeCreate.headers.hashKey (line.name 0)

/-- A line `b` behind `a` whose name has the hash of that of `a` is entered under it. -/
def Merges (a b : HeaderLine) : Prop :=
  a.hash = b.hash → compareLoop (b.name 0).byteAt a.key 0 = true

/-- No two entries have one hash. -/
structure Merged (o : Observed) : Prop extends Stored o where
  comparesNames : o.ctrl.ComparesNames
  hashes : (o.ctrl.headers.entries.map (·.hash)).Nodup

section Merged
variable {o o' : Observed} {line : HeaderLine}

theorem hashKey_name {ctrl : CurlData} (hnames : ctrl.ComparesNames) (line : HeaderLine)
    (block : Nat) : ctrl.headers.hashKey (line.name block) = line.hash :=
  hashKey_eq hnames CurlData.comparesNames_nativeCreate rfl

namespace Merged

/-- Entries with one hash are one entry. -/
theorem eq_of_hash (h : Merged o) {e e' : Entry CString Nat} (he : e ∈ o.ctrl.headers.entries)
    (he' : e' ∈ o.ctrl.headers.entries) (hhash : e.hash = e'.hash) : e = e' :=
  List.inj_on_of_nodup_map h.hashes he he' hhash

/-- The hash of an entry is that of a line. -/
theorem entry_line (h : Merged o) {e : Entry CString Nat} (he : e ∈ o.ctrl.headers.entries) :
    ∃ a ∈ o.accepted, e.key = a.line.name a.block ∧ e.hash = a.line.hash := by
  obtain ⟨a, ha, hkey⟩ := h.key_line e he
  refine ⟨a, ha, hkey, ?_⟩
  rw [h.wellFormed.hashed e he, hkey, hashKey_name h.comparesNames]

/-- The entry of an accepted line. -/
theorem owner_entry (h : Merged o) {a : Accepted} (ha : a ∈ o.accepted) :
    ∃ e ∈ o.ctrl.headers.entries, e.key.addr = a.owner ∧ e.hash = a.line.hash := by
  obtain ⟨e, he, haddr, hhash⟩ := h.owned a ha
  exact ⟨e, he, haddr, hhash.trans (hashKey_name h.comparesNames a.line a.block)⟩

/-- An entry with the hash of the line answers to it. -/
theorem found_of_hash (h : Merged o) (hmerges : ∀ a ∈ o.accepted, Merges a.line line)
    {e : Entry CString Nat} (he : e ∈ o.ctrl.headers.entries) (hhash : e.hash = line.hash) :
    o.ctrl.headers.found (line.name o.ctrl.blocks.length) e = true := by
  obtain ⟨a, ha, hkey, hline⟩ := h.entry_line he
  have hcompare := hmerges a ha (hline.symm.trans hhash)
  have hbyte : (line.name o.ctrl.blocks.length).byteAt = (line.name 0).byteAt := rfl
  have hchars : e.key.chars = a.line.key := by rw [hkey]; rfl
  rw [found_of_addr_ne h.comparesNames (h.addr_ne_name line e he),
    hashKey_name h.comparesNames, hhash, hbyte, hchars, hcompare]
  simp

/-- The entry that answers to the line has its hash. -/
theorem hash_of_found (h : Merged o) {e : Entry CString Nat} (he : e ∈ o.ctrl.headers.entries)
    (hfound : o.ctrl.headers.found (line.name o.ctrl.blocks.length) e = true) :
    e.hash = line.hash := by
  rw [found_of_addr_ne h.comparesNames (h.addr_ne_name line e he), Bool.and_eq_true,
    beq_iff_eq] at hfound
  exact hfound.1.trans (hashKey_name h.comparesNames line _)

/-- **The owner of a line** is that of the first line with its hash. -/
theorem owner_eq (h : Merged o) (hmerges : ∀ a ∈ o.accepted, Merges a.line line) :
    (o.ctrl.owner line).addr =
      ((o.accepted.find? fun a => a.line.hash == line.hash).map (·.owner)).getD
        (o.ctrl.blocks.length + 1) := by
  cases hfind : o.accepted.find? (fun a => a.line.hash == line.hash) with
  | none =>
    rcases owner_cases o line with ⟨e, he, hfound, -⟩ | ⟨-, howner⟩
    · obtain ⟨a, ha, -, hline⟩ := h.entry_line he
      have hnot := List.find?_eq_none.mp hfind a ha
      rw [beq_iff_eq] at hnot
      exact absurd (hline.symm.trans (h.hash_of_found he hfound)) hnot
    · rw [howner]
      rfl
  | some a =>
    have ha := List.mem_of_find?_eq_some hfind
    have hline : a.line.hash = line.hash := by simpa using List.find?_some hfind
    obtain ⟨e, he, haddr, hhash⟩ := h.owner_entry ha
    have hanswers := h.found_of_hash hmerges he (hhash.trans hline)
    rcases owner_cases o line with ⟨e', he', hfound, howner⟩ | ⟨hnone, -⟩
    · rw [howner, h.eq_of_hash he' he ((h.hash_of_found he' hfound).trans (hhash.trans hline).symm)]
      exact haddr
    · have hnot := Hashmap.entryGet_none hnone h.wellFormed e he
        ((hhash.trans hline).trans (hashKey_name h.comparesNames line _).symm)
      rw [hanswers] at hnot
      cases hnot

theorem header (h : Merged o) (hok : line.Allocated) (hs : line.isSpecial = false)
    (hmerges : ∀ a ∈ o.accepted, Merges a.line line) : Merged (o.step line) := by
  have hafter : CurlData.AfterHeader line o.ctrl (o.ctrl.headerCallback line).1 :=
    (CurlData.headerCallback_header hs hok.2).1
  refine ⟨h.toStored.step hok, h.comparesNames.step hok h.bufSize_pos, ?_⟩
  rw [Observed.step_ctrl]
  cases hget : o.ctrl.headers.entryGet (line.name o.ctrl.blocks.length) with
  | none =>
    obtain ⟨-, hperm, -, -⟩ := Hashmap.hashmapPut_absent line.callocOk o.ctrl.blocks.length
      h.wellFormed hget
    rw [(hafter.new hget).1, hok.1, ((hperm.map (·.hash)).nodup_iff), List.map_cons,
      List.nodup_cons]
    refine ⟨fun hmem => ?_, h.hashes⟩
    obtain ⟨e, he, hhash⟩ := List.mem_map.mp hmem
    have hnot := Hashmap.entryGet_none hget h.wellFormed e he hhash
    rw [h.found_of_hash hmerges he (hhash.trans (hashKey_name h.comparesNames line _))] at hnot
    cases hnot
  | some ref =>
    obtain ⟨front, e, rest, hentries, hat, -, hset⟩ := Hashmap.entryGet_some hget
    have hlt : e.value < o.ctrl.blocks.length :=
      (h.value_lt (h.ring e (by rw [hentries]; simp)).last_mem).2
    have hhashes := h.hashes
    rw [hentries] at hhashes
    rw [(hafter.old hget hat hlt).1, hset]
    simpa using hhashes

theorem step (h : Merged o) (hok : line.Allocated)
    (hmerges : line.isSpecial = false → ∀ a ∈ o.accepted, Merges a.line line) :
    Merged (o.step line) := by
  cases hs : line.isSpecial with
  | false => exact h.header hok hs (hmerges hs)
  | true =>
    refine ⟨h.toStored.step hok, h.comparesNames.step hok h.bufSize_pos, ?_⟩
    rw [Observed.step_ctrl]
    cases ht : line.isStatusLine with
    | false =>
      rw [CurlData.headerCallback_terminator hs ht]
      exact h.hashes
    | true =>
      rw [CurlData.headerCallback_statusLine ht hok.2 h.bufSize_pos]
      show (o.ctrl.beginResponse.headers.entries.map (·.hash)).Nodup
      rw [CurlData.beginResponse_headers]
      split
      · simp
      · exact h.hashes

end Merged

/-- Handles without entries. -/
theorem merged_of_nil (h : Stored o) (hnames : o.ctrl.ComparesNames)
    (hentries : o.ctrl.headers.entries = []) : Merged o :=
  ⟨h, hnames, by simp [hentries]⟩

/-! ## Two handles -/

/-- Two handles in which no two entries have one hash. -/
structure MergedTwins (o o' : Observed) : Prop extends Alike o o' where
  merged : Merged o
  merged' : Merged o'

namespace MergedTwins

theorem sameOwner (h : MergedTwins o o') (hmerges : ∀ a ∈ o.accepted, Merges a.line line)
    (hmerges' : ∀ a ∈ o'.accepted, Merges a.line line) : SameOwner line o o' := by
  have hlength := h.length
  have hle := h.merged.since_le
  have hle' := h.merged'.since_le
  have hdistance : ∀ x : Observed, ((x.accepted.find? fun a => a.line.hash == line.hash).map
      fun a => a.owner - x.since) =
        (x.ledger.find? fun a => a.line.hash == line.hash).map (·.owner) := by
    intro x
    rw [Observed.ledger, List.find?_map, Option.map_map]
    rfl
  have hrelative : ((o.accepted.find? fun a => a.line.hash == line.hash).map
      fun a => a.owner - o.since) = (o'.accepted.find? fun a => a.line.hash == line.hash).map
        fun a => a.owner - o'.since := by rw [hdistance, hdistance, h.ledger]
  unfold SameOwner
  rw [h.merged.owner_eq hmerges, h.merged'.owner_eq hmerges']
  cases hfind : o.accepted.find? (fun a => a.line.hash == line.hash) with
  | none =>
    rw [hfind] at hrelative
    rw [Option.map_eq_none_iff.mp hrelative.symm]
    simp only [Option.map_none, Option.getD_none]
    omega
  | some a =>
    rw [hfind] at hrelative
    obtain ⟨a', hfind', howner⟩ := Option.map_eq_some_iff.mp hrelative.symm
    rw [hfind']
    exact howner.symm

/-- **One line keeps two handles alike**, if it is entered under the names of all lines with
its hash. -/
theorem step (h : MergedTwins o o') (hok : line.Allocated) (ht : line.isStatusLine = false)
    (hmerges : line.isSpecial = false → ∀ a ∈ o.accepted, Merges a.line line) :
    MergedTwins (o.step line) (o'.step line) := by
  have hmerges' : line.isSpecial = false → ∀ a ∈ o'.accepted, Merges a.line line := by
    intro hs a' ha'
    have hmem : o'.entered a' ∈ o.ledger := h.ledger ▸ List.mem_map_of_mem ha'
    obtain ⟨a, ha, hentered⟩ := List.mem_map.mp hmem
    have hline : a.line = a'.line := congrArg Entered.line hentered
    exact hline ▸ hmerges hs a ha
  refine ⟨?_, h.merged.step hok hmerges, h.merged'.step hok hmerges'⟩
  cases hs : line.isSpecial with
  | true => exact h.terminator hs ht
  | false =>
    exact h.header h.merged.toStored h.merged'.toStored hok hs
      (h.sameOwner (hmerges hs) (hmerges' hs))

end MergedTwins
end Merged

/-! ## The lines of responses -/

/-- A head has ended, and no other has begun since. -/
def HeadEnded (lines : List HeaderLine) : Prop :=
  ∃ before blank after, lines = before ++ blank :: after ∧ blank.isSpecial = true ∧
    blank.isStatusLine = false ∧ ∀ line ∈ after, line.isStatusLine = false

/-- The lines of responses that follow each other: a status line comes first of all, or
behind the end of a head. -/
def Responses (lines : List HeaderLine) : Prop :=
  ∀ before line, before ++ [line] <+: lines → line.isStatusLine = true →
    before = [] ∨ HeadEnded before

/-- The header lines behind the last status line. -/
def lastHead (lines : List HeaderLine) : List HeaderLine :=
  (lines.rtakeWhile fun line => !line.isStatusLine).filter fun line => !line.isSpecial

section Runs
variable {o o' : Observed} {lines : List HeaderLine} {line : HeaderLine} {ctrl ctrl' : CurlData}

theorem Responses.of_prefix {lines' : List HeaderLine} (h : Responses lines')
    (hpre : lines <+: lines') : Responses lines :=
  fun before line hbefore ht => h before line (hbefore.trans hpre) ht

theorem Observed.run_append (o : Observed) (lines lines' : List HeaderLine) :
    o.run (lines ++ lines') = (o.run lines).run lines' := Runs.run_append _ _ _ _

theorem Observed.run_concat (o : Observed) (lines : List HeaderLine) (line : HeaderLine) :
    o.run (lines ++ [line]) = (o.run lines).step line := o.run_append lines [line]

/-- Lines that are no status lines leave the end of a head noted. -/
theorem seenHeaderEnd_run (h : o.ctrl.state.seenHeaderEnd = true)
    (hlines : ∀ line ∈ lines, line.Allocated ∧ line.isStatusLine = false) :
    (o.run lines).ctrl.state.seenHeaderEnd = true := by
  refine Runs.run_invariant (I := fun o => o.ctrl.state.seenHeaderEnd = true) Observed.step
    (fun o line ho hl => ?_) lines o h hlines
  obtain ⟨hok, ht⟩ := hl
  cases hs : line.isSpecial with
  | true => rw [Observed.step_terminator hs ht]
  | false =>
    have hafter : CurlData.AfterHeader line o.ctrl (o.ctrl.headerCallback line).1 :=
      (CurlData.headerCallback_header hs hok.2).1
    rw [Observed.step_ctrl, hafter.state]
    exact ho

theorem HeadEnded.seenHeaderEnd (h : HeadEnded lines) (hok : ∀ line ∈ lines, line.Allocated)
    (o : Observed) : (o.run lines).ctrl.state.seenHeaderEnd = true := by
  obtain ⟨before, blank, after, rfl, hs, ht, hafter⟩ := h
  have hblank : ((o.run before).step blank).ctrl.state.seenHeaderEnd = true := by
    rw [Observed.step_terminator hs ht]
  rw [List.append_cons, Observed.run_append, Observed.run_concat]
  exact seenHeaderEnd_run hblank fun line hline => ⟨hok line (by simp [hline]), hafter line hline⟩

/-- Two handles that have just been reset are alike. -/
theorem alike_start (h : ctrl.IsReset) (h' : ctrl'.IsReset) :
    Alike (.start ctrl) (.start ctrl') where
  seenHeaderEnd := h.seenHeaderEnd.trans h'.seenHeaderEnd.symm
  count := h.headerPairCount.trans h'.headerPairCount.symm
  length := by simp [Observed.start]
  slots := by
    intro i hi
    have hzero : (Observed.start ctrl).ctrl.headerPairCount = 0 := h.headerPairCount
    omega
  ledger := rfl

/-- **Two handles with tables of one size** that receive the same responses. -/
theorem chained_run (h : ctrl.IsReset) (h' : ctrl'.IsReset) (hnames : ctrl.ComparesNames)
    (hnames' : ctrl'.ComparesNames) (hcount : ctrl.headers.bucketCount = ctrl'.headers.bucketCount)
    (lines : List HeaderLine) (hok : ∀ line ∈ lines, line.Allocated) (hlines : Responses lines) :
    Chained ((Observed.start ctrl).run lines) ((Observed.start ctrl').run lines) := by
  induction lines using List.reverseRecOn with
  | nil =>
    refine ⟨alike_start h h', Stored.start h, Stored.start h', hnames, hnames', ?_, ?_⟩
    · show List.Forall₂ _ ctrl.headers.buckets ctrl'.headers.buckets
      rw [buckets_of_entries_nil h.entries, buckets_of_entries_nil h'.entries, hcount]
      exact forall₂_replicate_nil _
    · show ctrl.headers.size = ctrl'.headers.size
      rw [h.wellFormed.size_eq, h'.wellFormed.size_eq, h.entries, h'.entries]
  | append_singleton lines line ih =>
    have hbefore : ∀ l ∈ lines, l.Allocated := fun l hl => hok l (List.mem_append_left _ hl)
    have ih := ih hbefore (hlines.of_prefix (List.prefix_append _ _))
    rw [Observed.run_concat, Observed.run_concat]
    refine ih.step (hok line (by simp)) fun ht => ?_
    -- a status line comes first of all, or it clears both
    rcases hlines lines line (List.prefix_refl _) ht with rfl | hended
    · exact .inr h.headerPairCount
    · exact .inl (hended.seenHeaderEnd hbefore _)

/-- The header lines of a head, one after another, in two handles. -/
theorem MergedTwins.run : ∀ (lines : List HeaderLine) {o o' : Observed}, MergedTwins o o' →
    (∀ line ∈ lines, line.Allocated ∧ line.isStatusLine = false) →
    (o.accepted.map (·.line) ++ lines.filter fun line => !line.isSpecial).Pairwise Merges →
    MergedTwins (o.run lines) (o'.run lines)
  | [], _, _, h, _, _ => h
  | line :: lines, o, o', h, hlines, hmerges => by
      obtain ⟨hok, ht⟩ := hlines line List.mem_cons_self
      have hrest : ∀ l ∈ lines, l.Allocated ∧ l.isStatusLine = false :=
        fun l hl => hlines l (List.mem_cons_of_mem _ hl)
      cases hs : line.isSpecial with
      | true =>
        -- the end of the head is entered nowhere
        refine MergedTwins.run lines (h.step hok ht fun hnot => ?_) hrest ?_
        · rw [hs] at hnot
          cases hnot
        · rw [Observed.step_terminator hs ht]
          simpa [hs] using hmerges
      | false =>
        rw [List.filter_cons_of_pos (by simp [hs]), List.append_cons] at hmerges
        refine MergedTwins.run lines (h.step hok ht fun _ a ha => ?_) hrest ?_
        · have hpair := (List.pairwise_append.mp hmerges).1
          exact (List.pairwise_append.mp hpair).2.2 a.line (List.mem_map_of_mem ha) line
            (List.mem_singleton_self _)
        · rw [Observed.step_header hs]
          dsimp only
          rw [List.map_append]
          exact hmerges

/-- What a status line that clears the headers leaves in two handles. -/
theorem mergedTwins_of_statusLine (h : Stored o) (h' : Stored o') (hnames : o.ctrl.ComparesNames)
    (hnames' : o'.ctrl.ComparesNames) (hok : line.Allocated) (ht : line.isStatusLine = true)
    (hend : o.ctrl.state.seenHeaderEnd = true) (hend' : o'.ctrl.state.seenHeaderEnd = true) :
    MergedTwins (o.step line) (o'.step line) ∧ (o.step line).accepted = [] := by
  have hcleared : ∀ {x : Observed}, Stored x → x.ctrl.state.seenHeaderEnd = true →
      (x.step line).ctrl.headers.entries = [] := by
    intro x hx hend
    rw [Observed.step_ctrl, CurlData.headerCallback_statusLine ht hok.2 hx.bufSize_pos]
    show x.ctrl.beginResponse.headers.entries = []
    rw [CurlData.beginResponse_headers, if_pos hend, Hashmap.entries_hashmapClear]
  refine ⟨⟨alike_of_clears h h' hok ht hend hend', ?_, ?_⟩, ?_⟩
  · exact merged_of_nil (h.step hok) (hnames.step hok h.bufSize_pos) (hcleared h hend)
  · exact merged_of_nil (h'.step hok) (hnames'.step hok h'.bufSize_pos) (hcleared h' hend')
  · rw [Observed.step_clears ht hend]

/-- Two handles that have just been reset have no entries. -/
theorem mergedTwins_start (h : ctrl.IsReset) (h' : ctrl'.IsReset) (hnames : ctrl.ComparesNames)
    (hnames' : ctrl'.ComparesNames) : MergedTwins (.start ctrl) (.start ctrl') :=
  ⟨alike_start h h', merged_of_nil (Stored.start h) hnames h.entries,
    merged_of_nil (Stored.start h') hnames' h'.entries⟩

/-- Behind the last status line, two handles have nothing to tell them apart. -/
theorem mergedTwins_front (h : ctrl.IsReset) (h' : ctrl'.IsReset) (hnames : ctrl.ComparesNames)
    (hnames' : ctrl'.ComparesNames) {front : List HeaderLine}
    (hlast : ∀ hne : front ≠ [], (front.getLast hne).isStatusLine = true)
    (hok : ∀ line ∈ front, line.Allocated) (hlines : Responses front) :
    MergedTwins ((Observed.start ctrl).run front) ((Observed.start ctrl').run front) ∧
      ((Observed.start ctrl).run front).accepted = [] := by
  rcases List.eq_nil_or_concat front with rfl | ⟨init, line, rfl⟩
  · exact ⟨mergedTwins_start h h' hnames hnames', rfl⟩
  rw [List.concat_eq_append] at *
  have ht : line.isStatusLine = true := by simpa using hlast (by simp)
  have hline : line.Allocated := hok line (by simp)
  have hinit : ∀ l ∈ init, l.Allocated := fun l hl => hok l (List.mem_append_left _ hl)
  rw [Observed.run_concat, Observed.run_concat]
  rcases hlines init line (List.prefix_refl _) ht with rfl | hended
  · have hstart := mergedTwins_start h h' hnames hnames'
    refine ⟨⟨hstart.statusLine hstart.merged.toStored hstart.merged'.toStored hline ht
      (.inr h.headerPairCount), ?_, ?_⟩, ?_⟩
    · exact hstart.merged.step hline fun _ a ha => nomatch ha
    · exact hstart.merged'.step hline fun _ a ha => nomatch ha
    · rw [Observed.run, Runs.run_nil, Observed.step_statusLine ht h.seenHeaderEnd]
      rfl
  · exact mergedTwins_of_statusLine ((Stored.start h).run_from hinit)
      ((Stored.start h').run_from hinit) (ComparesNames.run_from (Stored.start h) hnames hinit)
      (ComparesNames.run_from (Stored.start h') hnames' hinit) hline ht
      (hended.seenHeaderEnd hinit _) (hended.seenHeaderEnd hinit _)

/-- **Two handles whose last head has names that share entries**, whatever the size of their
tables. -/
theorem mergedTwins_run (h : ctrl.IsReset) (h' : ctrl'.IsReset) (hnames : ctrl.ComparesNames)
    (hnames' : ctrl'.ComparesNames) (lines : List HeaderLine)
    (hok : ∀ line ∈ lines, line.Allocated) (hlines : Responses lines)
    (hmerges : (lastHead lines).Pairwise Merges) :
    MergedTwins ((Observed.start ctrl).run lines) ((Observed.start ctrl').run lines) := by
  have hsplit : (lines.rdropWhile fun line => !line.isStatusLine) ++
      (lines.rtakeWhile fun line => !line.isStatusLine) = lines :=
    List.rdropWhile_append_rtakeWhile
  have hpre : (lines.rdropWhile fun line => !line.isStatusLine) <+: lines :=
    List.rdropWhile_prefix _ lines
  have htail : ∀ line ∈ (lines.rtakeWhile fun line => !line.isStatusLine),
      line.Allocated ∧ line.isStatusLine = false := by
    intro line hline
    refine ⟨hok line ((List.rtakeWhile_suffix _ lines).subset hline), ?_⟩
    simpa using List.mem_rtakeWhile_imp hline
  obtain ⟨hfront, haccepted⟩ := mergedTwins_front h h' hnames hnames'
    (fun hne => by simpa using List.rdropWhile_last_not _ lines hne)
    (fun line hline => hok line (hpre.subset hline)) (hlines.of_prefix hpre)
  -- the table that was there before the last status line does not matter any more
  unfold lastHead at hmerges
  rw [← hsplit, Observed.run_append, Observed.run_append]
  refine MergedTwins.run _ hfront htail ?_
  rw [haccepted, List.map_nil, List.nil_append]
  exact hmerges

/-! ## What has been accepted -/

/-- The header lines are accepted, one after another. -/
theorem Observed.accepted_run : ∀ (lines : List HeaderLine) (o : Observed),
    (∀ line ∈ lines, line.isStatusLine = false) → (o.run lines).accepted.map (·.line) =
      o.accepted.map (·.line) ++ lines.filter fun line => !line.isSpecial
  | [], o, _ => (List.append_nil _).symm
  | line :: lines, o, hlines => by
      have hrest := Observed.accepted_run lines (o.step line)
        fun l hl => hlines l (List.mem_cons_of_mem _ hl)
      refine hrest.trans ?_
      cases hs : line.isSpecial with
      | true =>
        rw [Observed.step_terminator hs (hlines line List.mem_cons_self),
          List.filter_cons_of_neg (by simp [hs])]
      | false =>
        rw [Observed.step_header hs, List.filter_cons_of_pos (by simp [hs]), List.map_append,
          List.append_assoc]
        rfl

/-- What has been accepted since the headers were cleared is the last head. -/
theorem accepted_lastHead (h : ctrl.IsReset) (hnames : ctrl.ComparesNames)
    (lines : List HeaderLine) (hok : ∀ line ∈ lines, line.Allocated) (hlines : Responses lines) :
    ((Observed.start ctrl).run lines).accepted.map (·.line) = lastHead lines := by
  have hsplit : (lines.rdropWhile fun line => !line.isStatusLine) ++
      (lines.rtakeWhile fun line => !line.isStatusLine) = lines :=
    List.rdropWhile_append_rtakeWhile
  have hpre : (lines.rdropWhile fun line => !line.isStatusLine) <+: lines :=
    List.rdropWhile_prefix _ lines
  obtain ⟨-, haccepted⟩ := mergedTwins_front h h hnames hnames
    (fun hne => by simpa using List.rdropWhile_last_not _ lines hne)
    (fun line hline => hok line (hpre.subset hline)) (hlines.of_prefix hpre)
  conv_lhs => rw [← hsplit, Observed.run_append]
  rw [Observed.accepted_run _ _ fun line hline => by simpa using List.mem_rtakeWhile_imp hline,
    haccepted]
  rfl

/-- No more pairs are counted than a status line and the lines that have been accepted. -/
theorem headerPairCount_run_le (h : ctrl.IsReset) (lines : List HeaderLine)
    (hok : ∀ line ∈ lines, line.Allocated) (hlines : Responses lines) :
    ((Observed.start ctrl).run lines).ctrl.headerPairCount ≤
      ((Observed.start ctrl).run lines).accepted.length + 1 := by
  induction lines using List.reverseRecOn with
  | nil =>
    have hzero : (Observed.start ctrl).ctrl.headerPairCount = 0 := h.headerPairCount
    show (Observed.start ctrl).ctrl.headerPairCount ≤ _
    omega
  | append_singleton lines line ih =>
    have hbefore : ∀ l ∈ lines, l.Allocated := fun l hl => hok l (List.mem_append_left _ hl)
    have hline : line.Allocated := hok line (by simp)
    have ih := ih hbefore (hlines.of_prefix (List.prefix_append _ _))
    have hstored : Stored ((Observed.start ctrl).run lines) := (Stored.start h).run_from hbefore
    rw [Observed.run_concat]
    cases hs : line.isSpecial with
    | false =>
      have hafter : CurlData.AfterHeader line ((Observed.start ctrl).run lines).ctrl
          (((Observed.start ctrl).run lines).ctrl.headerCallback line).1 :=
        (CurlData.headerCallback_header hs hline.2).1
      have hle : toUInt16 (((Observed.start ctrl).run lines).ctrl.headerPairCount + 1) ≤
        ((Observed.start ctrl).run lines).ctrl.headerPairCount + 1 := Nat.mod_le _ _
      rw [Observed.step_ctrl, hafter.headerPairCount, Observed.step_header hs]
      simp only [List.length_append, List.length_singleton]
      omega
    | true =>
      cases ht : line.isStatusLine with
      | false =>
        rw [Observed.step_terminator hs ht]
        exact ih
      | true =>
        have hempty : ((Observed.start ctrl).run lines).ctrl.state.seenHeaderEnd = true ∨
            ((Observed.start ctrl).run lines).ctrl.headerPairCount = 0 := by
          rcases hlines lines line (List.prefix_refl _) ht with rfl | hended
          · exact .inr h.headerPairCount
          · exact .inl (hended.seenHeaderEnd hbefore _)
        rw [Filled.count_statusLine hstored hline ht hempty]
        exact Nat.le_add_left _ _

end Runs
end Chttpc
