import Chttpc.HeaderBlocks

/-!
# Looking a header up by its name

`hashKeyCompare` answers `true` when it meets a difference, so what separates two
names in the map is their hash and next to nothing else.  Two names with one hash
share an entry, and a name nobody sent is answered with the value of any line
whose name has its hash.

Names with a given hash are easy to come by (`exists_collision`), so every
response with a header line has a query that is answered wrongly:
`lookup_exact_iff`.
-/

namespace Chttpc

namespace CurlData

/-- The map compares names the way `nativeCreate` sets it up. -/
def ComparesNames (ctrl : CurlData) : Prop :=
  ctrl.headers.hash = hashCalc ∧ ctrl.headers.equals = hashKeyCompare

theorem comparesNames_nativeCreate : nativeCreate.ComparesNames := ⟨rfl, rfl⟩

section Functions
variable {ctrl : CurlData} {line : HeaderLine}

theorem ComparesNames.congr {ctrl' : CurlData} (h : ctrl.ComparesNames)
    (hhash : ctrl'.headers.hash = ctrl.headers.hash)
    (hequals : ctrl'.headers.equals = ctrl.headers.equals) : ctrl'.ComparesNames :=
  ⟨hhash.trans h.1, hequals.trans h.2⟩

theorem ComparesNames.storeHeader (h : ctrl.ComparesNames) (name : CString) (block : Nat) :
    (ctrl.storeHeader line name block).1.ComparesNames := by
  unfold CurlData.storeHeader
  split
  · exact h.congr (Hashmap.hashmapPut_functions _ _ _).1 (Hashmap.hashmapPut_functions _ _ _).2
  · split <;> exact h

theorem ComparesNames.step {o : Observed} (h : o.ctrl.ComparesNames) (hok : line.Allocated)
    (hsize : 0 < o.ctrl.headerBufSize) : (o.step line).ctrl.ComparesNames := by
  rw [Observed.step_ctrl]
  cases hs : line.isSpecial with
  | true =>
    cases ht : line.isStatusLine with
    | true =>
      rw [headerCallback_statusLine ht hok.2 hsize]
      show o.ctrl.beginResponse.ComparesNames
      unfold beginResponse
      split <;> exact h
    | false => rw [headerCallback_terminator hs ht]; exact h
  | false =>
    have hafter : AfterHeader line o.ctrl (o.ctrl.headerCallback line).1 :=
      (headerCallback_header hs hok.2).1
    have hcopy : (o.ctrl.copyLine line).ComparesNames := h
    rw [ComparesNames, hafter.headers]
    exact hcopy.storeHeader _ _

end Functions
end CurlData

/-! ## What the lookup should return -/

namespace HeaderLine
variable (line : HeaderLine)

/-- The name of a line `name:value`. -/
def fieldName : List UInt8 := line.bytes.take line.colon

/-- The value of a line `name:value`, trimmed. -/
def fieldValue : List UInt8 := wspTrim (line.bytes.drop (line.colon + 1))

end HeaderLine

def lowerUnit (c : UInt16) : UInt16 := if 65 ≤ c ∧ c ≤ 90 then c + 32 else c

/-- The name equals the query, ignoring ASCII case. -/
def sameName (name : List UInt8) (query : JString) : Bool :=
  name.map (fun c => lowerUnit c.toUInt16) == query.map lowerUnit

/-- The trimmed value of the last line with the name asked for. -/
def ResponseBlock.lastValue (block : ResponseBlock) (query : JString) : Option (List UInt8) :=
  ((block.headers.filter fun line => sameName line.fieldName query).getLast?).map (·.fieldValue)

theorem length_of_sameName {name : List UInt8} {query : JString}
    (h : sameName name query = true) : name.length = query.length := by
  have hmap : name.map (fun c => lowerUnit c.toUInt16) = query.map lowerUnit := by
    simpa [sameName] using h
  simpa using congrArg List.length hmap

theorem length_fieldName_le (line : HeaderLine) : line.fieldName.length ≤ line.bytes.length := by
  rw [HeaderLine.fieldName, List.length_take]
  exact Nat.min_le_right _ _

theorem exists_length_bound : ∀ lines : List HeaderLine,
    ∃ n, ∀ line ∈ lines, line.bytes.length ≤ n
  | [] => ⟨0, fun _ h => absurd h List.not_mem_nil⟩
  | line :: lines => by
      obtain ⟨n, hn⟩ := exists_length_bound lines
      refine ⟨line.bytes.length + n, fun l hl => ?_⟩
      rcases List.mem_cons.mp hl with rfl | hl
      · omega
      · have := hn l hl
        omega

/-- No line has a name that is longer than all lines. -/
theorem lastValue_of_long {block : ResponseBlock} {query : JString}
    (h : ∀ line ∈ block.headers, line.bytes.length < query.length) :
    block.lastValue query = none := by
  have hnone : (block.headers.filter fun line => sameName line.fieldName query) = [] := by
    refine List.filter_eq_nil_iff.mpr fun line hline hsame => ?_
    have hlen := length_of_sameName hsame
    have hle := length_fieldName_le line
    have hlt := h line hline
    omega
  rw [ResponseBlock.lastValue, hnone]
  rfl

theorem resultString_isSome (platform : Platform) (text : List UInt8) :
    (platform.resultString true text).isSome = true := by
  unfold Platform.resultString
  split <;> rfl

/-! ## What the lookup returns -/

section Lookup
variable {o : Observed} {ctrl : CurlData} {block : ResponseBlock} {lines : List HeaderLine}

theorem ComparesNames.run_from (h : Stored o) (hnames : o.ctrl.ComparesNames)
    (hok : ∀ line ∈ lines, line.Allocated) : (o.run lines).ctrl.ComparesNames := by
  have hstep : ∀ o line, (Stored o ∧ o.ctrl.ComparesNames) → line.Allocated →
      Stored (o.step line) ∧ (o.step line).ctrl.ComparesNames := fun _ _ ho hl =>
    ⟨ho.1.step hl, ho.2.step hl ho.1.bufSize_pos⟩
  exact (Runs.run_invariant Observed.step hstep lines _ ⟨h, hnames⟩ hok).2

/-- The ledger lists the header lines of a head. -/
theorem accepted_run_headers : ∀ (lines : List HeaderLine) (o : Observed),
    (∀ line ∈ lines, line.isSpecial = false) →
    (o.run lines).accepted.map (·.line) = o.accepted.map (·.line) ++ lines
  | [], _, _ => by simp [Observed.run]
  | line :: lines, o, h => by
      have ih := accepted_run_headers lines (o.step line)
        fun l hl => h l (List.mem_cons_of_mem _ hl)
      have hrun : o.run (line :: lines) = (o.step line).run lines := rfl
      rw [hrun, ih, Observed.step_header (h line List.mem_cons_self)]
      simp

/-- The state after one head from a reset handle. -/
theorem run_first_block (h : ctrl.IsReset) (hnames : ctrl.ComparesNames)
    (hcolon : 58 ∉ block.statusLine.bytes) (hlen : block.headers.length < 65535) :
    let o := (Observed.start ctrl).run block.lines
    Filled o ∧ o.ctrl.ComparesNames ∧ o.ctrl.headerPairCount = 1 + block.headers.length ∧
      o.accepted.map (·.line) = block.headers := by
  obtain ⟨hfilled, -, hcount, -⟩ := run_recognised (Stored.start h)
    (Or.inr ⟨h.headerPairCount, rfl⟩) hcolon hlen
  refine ⟨hfilled, ComparesNames.run_from (Stored.start h) hnames block.allocated, hcount, ?_⟩
  have ht : block.statusLine.isStatusLine = true :=
    isStatusLine_of_http block.statusLine_bytes hcolon
  rw [ResponseBlock.run_lines, Observed.step_terminator (blank_isSpecial block.blankLine_bytes)
    (blank_not_isStatusLine block.blankLine_bytes)]
  have hrun := accepted_run_headers block.headers ((Observed.start ctrl).step block.statusLine)
    fun _ hl => block.header_not_special hl
  rw [Observed.step_statusLine ht h.seenHeaderEnd] at hrun ⊢
  exact hrun

theorem localKey_ascii {name : List UInt8} (h : 0 ∉ name) (beyond : Nat → UInt8) :
    CurlData.localKey (name.map (·.toUInt16)) (name.map (·.toUInt16)).length beyond =
      ⟨0, name, beyond⟩ := by
  have hbytes : ((name.map (·.toUInt16)).take (name.map (·.toUInt16)).length).map (·.toUInt8) =
      name := by
    simp [Function.comp_def]
  simp only [CurlData.localKey, Int.toNat_natCast, hbytes, cString_eq_self_iff.mpr h]

/-- An entry that answers to the key is found, and its value can be read. -/
theorem Rings.hashmapGet_of_found (h : Rings o) {e : Entry CString Nat} {key : CString}
    (he : e ∈ o.ctrl.headers.entries) (hhash : e.hash = o.ctrl.headers.hashKey key)
    (hfound : o.ctrl.headers.found key e = true) :
    ∃ e' ∈ o.ctrl.headers.entries, o.ctrl.headers.found key e' = true ∧
      o.ctrl.headers.hashmapGet key = some e'.value := by
  cases hget : o.ctrl.headers.entryGet key with
  | none =>
    rw [Hashmap.entryGet_none hget h.wellFormed e he hhash] at hfound
    cases hfound
  | some ref =>
    obtain ⟨front, e', rest, hentries, hat, hfound', -⟩ := Hashmap.entryGet_some hget
    refine ⟨e', by rw [hentries]; simp, hfound', ?_⟩
    rw [Hashmap.hashmapGet_eq, hget, Option.bind_some, hat, Option.map_some]

/-- A name nobody sent is answered, if it has the hash of one that was sent and
the comparison sees a difference. -/
theorem getHeader_collision (h : Filled o) (hnames : o.ctrl.ComparesNames)
    (hcount : o.ctrl.headerPairCount ≠ 0) {a : Accepted} (ha : a ∈ o.accepted) (len : Nat) :
    ∃ query : JString, len < query.length ∧
      ∀ beyond, ∃ text, o.ctrl.getHeader (some query) query.length beyond = some text := by
  obtain ⟨e, he, haddr, hhash⟩ := h.owned a ha
  -- The second character of the query differs from the first one of the entry's key.
  obtain ⟨c, rest, hca, hc0, hprint, hlen, hcalc⟩ := exists_collision
    (hashCalc (a.line.name a.block)) ((e.key.chars.head?.map toLower).getD 0) len
  have hnul : 0 ∉ 45 :: c :: rest := fun hmem => absurd (hprint 0 hmem).1 (by decide)
  refine ⟨(45 :: c :: rest).map (·.toUInt16), by simpa using hlen, fun beyond => ?_⟩
  rw [CurlData.getHeader, if_neg hcount, localKey_ascii hnul]
  have hkey : o.ctrl.headers.hashKey ⟨0, 45 :: c :: rest, beyond⟩ = e.hash := by
    rw [hhash, Hashmap.hashKey, Hashmap.hashKey, hnames.1, hcalc]
  have hfound : o.ctrl.headers.found ⟨0, 45 :: c :: rest, beyond⟩ e = true := by
    have hcompare : hashKeyCompare e.key ⟨0, 45 :: c :: rest, beyond⟩ = true := by
      refine hashKeyCompare_of_second rfl hc0 fun x hx => ?_
      rw [Option.mem_def] at hx
      simpa [hx] using hca
    rw [Hashmap.found, Hashmap.equalKeys, hkey, hnames.2]
    simp [hcompare]
  obtain ⟨e', he', -, hget⟩ := h.hashmapGet_of_found he hkey.symm hfound
  have hlt := (h.value_lt (h.ring e' he').last_mem).2
  rw [hget, Option.bind_some]
  exact ⟨_, by rw [List.getElem?_eq_getElem hlt]; rfl⟩

/-- **Lookup by name is exact only where there is nothing to find.**  From a reset
handle, after a head whose status line has no colon and that has fewer than 65535
header lines, every query is answered with the trimmed value of the last line
that has the name asked for, or not at all if none has, if and only if the head
has no header line. -/
theorem lookup_exact_iff (h : ctrl.IsReset) (hnames : ctrl.ComparesNames) (platform : Platform)
    (block : ResponseBlock) (hcolon : 58 ∉ block.statusLine.bytes)
    (hlen : block.headers.length < 65535) :
    (∀ (query : JString) (beyond : Nat → UInt8),
      (ctrl.receive block.lines).header platform true (some query) query.length beyond =
        (block.lastValue query).bind (platform.resultString true)) ↔ block.headers = [] := by
  obtain ⟨hfilled, hnames', hcount, haccepted⟩ := run_first_block h hnames hcolon hlen
  have hrun : ctrl.receive block.lines = ((Observed.start ctrl).run block.lines).ctrl :=
    (Observed.run_ctrl _ (Observed.start ctrl)).symm
  rw [hrun]
  generalize (Observed.start ctrl).run block.lines = o at *
  constructor
  · intro hexact
    apply Classical.byContradiction
    intro hne
    have hsome : o.accepted ≠ [] := fun hnil => hne (by rw [← haccepted, hnil]; rfl)
    obtain ⟨a, ha⟩ := List.exists_mem_of_ne_nil _ hsome
    obtain ⟨n, hn⟩ := exists_length_bound block.headers
    obtain ⟨query, hlong, hfound⟩ := getHeader_collision hfilled hnames' (by omega) ha n
    obtain ⟨text, htext⟩ := hfound fun _ => 0
    have hquery := hexact query fun _ => 0
    rw [CurlData.header, htext, Option.bind_some,
      lastValue_of_long fun line hline => Nat.lt_of_le_of_lt (hn line hline) hlong] at hquery
    have hstring := resultString_isSome platform text
    rw [hquery] at hstring
    cases hstring
  · intro hnil query beyond
    have hlast : block.lastValue query = none := by rw [ResponseBlock.lastValue, hnil]; rfl
    rw [hnil, List.map_eq_nil_iff] at haccepted
    have hget : ∀ key, o.ctrl.headers.hashmapGet key = none := by
      intro key
      rw [Hashmap.hashmapGet_eq]
      cases hentry : o.ctrl.headers.entryGet key with
      | none => rfl
      | some ref =>
        obtain ⟨front, e, rest, hentries, -⟩ := Hashmap.entryGet_some hentry
        obtain ⟨a, ha, -⟩ := hfilled.key_line e (by rw [hentries]; simp)
        rw [haccepted] at ha
        cases ha
    rw [hlast, CurlData.header, CurlData.getHeader, if_neg (by omega), hget]
    rfl

/-- `a~:1` and `b_:2`; the two names have one hash. -/
def collisionBlock : ResponseBlock where
  statusLine := .ofBytes (ascii "HTTP/" ++ ascii "1.1 200 OK" ++ [13, 10])
  reason := ascii "1.1 200 OK"
  headers := [.ofBytes (ascii "a~" ++ 58 :: (ascii "1" ++ [13, 10])),
    .ofBytes (ascii "b_" ++ 58 :: (ascii "2" ++ [13, 10]))]
  blankLine := .ofBytes [13, 10]
  statusLine_bytes := rfl
  headers_bytes := by
    intro line h
    rcases List.mem_pair.mp h with rfl | rfl
    · exact ⟨ascii "a~", ascii "1", rfl⟩
    · exact ⟨ascii "b_", ascii "2", rfl⟩
  blankLine_bytes := bytes_blankLine
  allocated := by simp [HeaderLine.ofBytes, HeaderLine.Allocated]

theorem lookup_redirectBlock :
    (∀ (query : JString) (beyond : Nat → UInt8),
      (nativeCreate.receive redirectBlock.lines).header latinPlatform true (some query)
          query.length beyond =
        (redirectBlock.lastValue query).bind (latinPlatform.resultString true)) ↔
      redirectBlock.headers = [] :=
  lookup_exact_iff CurlData.isReset_nativeCreate CurlData.comparesNames_nativeCreate latinPlatform
    redirectBlock (by decide) (by decide)

/-- The query `a~` is answered with the value of `b_`. -/
theorem header_of_collisionBlock :
    ¬ ∀ (block : ResponseBlock) (query : JString) (beyond : Nat → UInt8),
      58 ∉ block.statusLine.bytes → block.headers.length < 65535 →
        (nativeCreate.receive block.lines).header latinPlatform true (some query)
            query.length beyond =
          (block.lastValue query).bind (latinPlatform.resultString true) := by
  intro h
  have hexact := h collisionBlock [97, 126] (fun _ => 0) (by decide) (by decide)
  have hanswer : (nativeCreate.receive collisionBlock.lines).header latinPlatform true
      (some [97, 126]) 2 (fun _ => 0) = some [50] := by decide
  have hexpected : (collisionBlock.lastValue [97, 126]).bind (latinPlatform.resultString true) =
      some [49] := by decide
  rw [hexpected] at hexact
  exact absurd (hanswer.symm.trans hexact) (by decide)

end Lookup

end Chttpc
