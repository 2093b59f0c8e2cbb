import Mathlib.Logic.Relation
import Chttpc.HeaderArray
import Chttpc.LineScan

/-!
# The buffer for header strings

`getResponseHeaders` converts all names and values of the map in one buffer, of
`maxHeaderLength` units.  `header_callback` notes the lengths of the two texts of each
line it enters; the maximum is a `uint16_t` and the lengths are compared before they are
cut to it, so a text of 65536 bytes or more leaves a maximum below its length.

`Mapped` is what the map and the blocks always keep, and `Noted` what the maximum keeps
as long as no line is that long.
-/

namespace Chttpc
open Hashmap CircularList

/-! ## What is converted -/

namespace CurlData
variable (ctrl : CurlData) (platform : Platform) (alloc : ArrayAlloc)

/-- The texts that are converted for an entry whose ring the traversal comes around. -/
def convertedTexts (entry : Entry CString Nat) : List (List UInt8) :=
  entry.key.chars :: ((ctrl.ringOf entry).getD []).map fun block => (ctrl.valueText block).getD []

/-- Converts the texts, one after another. -/
def convertAll : List (List UInt8) → HeaderWriter → Except Stop HeaderWriter
  | [], w => .ok w
  | text :: texts, w =>
      match w.put platform alloc text with
      | .error stop => .error stop
      | .ok w => convertAll texts w

theorem writeValues_eq : ∀ (blocks : List Nat) (w : HeaderWriter),
    ctrl.writeValues platform alloc blocks w =
      convertAll platform alloc (blocks.map fun block => (ctrl.valueText block).getD []) w
  | [], _ => rfl
  | block :: blocks, w => by
      rw [writeValues, List.map_cons, convertAll]
      cases w.put platform alloc ((ctrl.valueText block).getD []) with
      | error stop => rfl
      | ok w => exact writeValues_eq blocks w

/-- **The scan converts the texts of its entries**, and skips an element behind them. -/
theorem writeEntry_eq {entry : Entry CString Nat} {blocks : List Nat}
    (hring : ctrl.ringOf entry = some blocks) (w : HeaderWriter) :
    ctrl.writeEntry platform alloc entry w =
      match convertAll platform alloc (ctrl.convertedTexts entry) w with
      | .error stop => .error stop
      | .ok w => .ok { w with hdrPos := w.hdrPos + 1 } := by
  rw [writeEntry, convertedTexts, convertAll, hring]
  cases w.put platform alloc entry.key.chars with
  | error stop => rfl
  | ok w =>
    cases hvalues : convertAll platform alloc
        (blocks.map fun block => (ctrl.valueText block).getD []) w with
    | error stop => simp only [writeValues_eq, Option.getD_some, hvalues]
    | ok w => simp only [writeValues_eq, Option.getD_some, hvalues]

/-- The values of the map are those its entries lead to. -/
def Leads (entry : Entry CString Nat) (block : Nat) : Prop :=
  Relation.ReflTransGen (fun p q => ctrl.refOf p = some q) entry.value block

/-- The buffer of `maxHeaderLength` units has room for every name and every value of the
map, so for every text that is converted. -/
structure Covered : Prop where
  names : ∀ e ∈ ctrl.headers.entries, e.key.chars.length ≤ ctrl.maxHeaderLength
  values : ∀ e ∈ ctrl.headers.entries, ∀ block, ctrl.Leads e block →
    ∀ text, ctrl.valueText block = some text → text.length ≤ ctrl.maxHeaderLength
  converted : ∀ e ∈ ctrl.headers.entries, ∀ text ∈ ctrl.convertedTexts e,
    text.length ≤ ctrl.maxHeaderLength

end CurlData

/-! ## What a line does to the store -/

namespace CurlData
variable {ctrl : CurlData} {line : HeaderLine}

/-- The store, with the two texts of a header line in it. -/
def entered (ctrl : CurlData) (line : HeaderLine) : CurlData :=
  ((ctrl.copyLine line).storeHeader line (line.name ctrl.blocks.length) ctrl.blocks.length).1

theorem appendPair_store (statusLine : Bool) (old block : Nat) (name : CString) :
    (ctrl.appendPair line statusLine old block name).1.headers = ctrl.headers ∧
      (ctrl.appendPair line statusLine old block name).1.blocks = ctrl.blocks ∧
      (ctrl.appendPair line statusLine old block name).1.maxHeaderLength =
        ctrl.maxHeaderLength := by
  have hcapacity : (ctrl.headersEnsureCapacity line.reallocOk (ctrl.headerPairCount + 1)).1.headers =
        ctrl.headers ∧
      (ctrl.headersEnsureCapacity line.reallocOk (ctrl.headerPairCount + 1)).1.blocks =
        ctrl.blocks ∧
      (ctrl.headersEnsureCapacity line.reallocOk (ctrl.headerPairCount + 1)).1.maxHeaderLength =
        ctrl.maxHeaderLength := by
    unfold headersEnsureCapacity
    split
    · exact ⟨rfl, rfl, rfl⟩
    · dsimp only
      split <;> exact ⟨rfl, rfl, rfl⟩
  unfold appendPair
  dsimp only
  split
  · exact hcapacity
  · cases statusLine <;> exact hcapacity

/-- A special line has no value. -/
theorem value_of_special (h : line.isSpecial = true) : line.value = [] := by
  have hcolon : line.colon = line.bufferLength := by
    rw [HeaderLine.isSpecial, Bool.and_eq_true, Bool.and_eq_true, beq_iff_eq] at h
    exact h.1.1
  rw [HeaderLine.value, HeaderLine.trimmedValue_eq, HeaderLine.valueRange, hcolon, Nat.sub_self]
  rfl

/-- A special line clears the map or leaves it, and adds at most a block without a value. -/
theorem headerCallback_special (h : line.isSpecial = true) :
    ((ctrl.headerCallback line).1.headers = ctrl.headers ∨
        (ctrl.headerCallback line).1.headers = ctrl.headers.hashmapClear) ∧
      ((ctrl.headerCallback line).1.blocks = ctrl.blocks ∨
        (ctrl.headerCallback line).1.blocks = ctrl.blocks ++ [⟨none, []⟩]) ∧
      (ctrl.headerCallback line).1.maxHeaderLength = ctrl.maxHeaderLength := by
  have hbegin : (ctrl.beginResponse.headers = ctrl.headers ∨
      ctrl.beginResponse.headers = ctrl.headers.hashmapClear) ∧
        ctrl.beginResponse.blocks = ctrl.blocks ∧
        ctrl.beginResponse.maxHeaderLength = ctrl.maxHeaderLength := by
    unfold beginResponse
    split
    · exact ⟨.inr rfl, rfl, rfl⟩
    · exact ⟨.inl rfl, rfl, rfl⟩
  cases ht : line.isStatusLine with
  | false =>
    rw [headerCallback_terminator h ht]
    exact ⟨.inl rfl, .inl rfl, rfl⟩
  | true =>
    unfold headerCallback
    rw [if_pos h, if_pos ht]
    dsimp only
    obtain ⟨hheaders, hblocks, hmax⟩ := @appendPair_store
      ((ctrl.beginResponse.setCount 0).copyLine line) line true ctrl.beginResponse.headerPairCount
      (ctrl.beginResponse.setCount 0).blocks.length
      (line.name (ctrl.beginResponse.setCount 0).blocks.length)
    rw [hheaders, hblocks, hmax]
    refine ⟨hbegin.1, .inr ?_, hbegin.2.2⟩
    show ctrl.beginResponse.blocks ++ [⟨none, line.value⟩] = _
    rw [hbegin.2.1, value_of_special h]

/-- A header line is entered, and its lengths are noted. -/
theorem headerCallback_enters (h : line.isSpecial = false) :
    (ctrl.headerCallback line).1.headers = (ctrl.entered line).headers ∧
      (ctrl.headerCallback line).1.blocks = (ctrl.entered line).blocks ∧
      (ctrl.headerCallback line).1.maxHeaderLength =
        ((ctrl.noteLength line.trimmedKey.length).noteLength
          line.trimmedValue.length).maxHeaderLength := by
  unfold headerCallback
  rw [if_neg (by rw [h]; decide)]
  dsimp only
  rw [show ((ctrl.copyLine line).storeHeader line (line.name ctrl.blocks.length)
    ctrl.blocks.length).1 = ctrl.entered line from rfl]
  obtain ⟨hheaders, hblocks, hmax⟩ := @appendPair_store
    (((ctrl.entered line).noteLength line.trimmedKey.length).noteLength line.trimmedValue.length)
    line false 0 ctrl.blocks.length ((ctrl.copyLine line).storeHeader line
      (line.name ctrl.blocks.length) ctrl.blocks.length).2
  have hentered : (ctrl.entered line).maxHeaderLength = ctrl.maxHeaderLength := by
    unfold entered
    rw [storeHeader_eq]
    rfl
  rw [hheaders, hblocks, hmax]
  simp only [noteLength_eq, hentered, and_self]

/-! ### The map and the blocks -/

/-- The entries behind a header line: those there were, some with another value, and the
new one. -/
theorem mem_entries_entered (hw : ctrl.headers.WellFormed) {e : Entry CString Nat}
    (he : e ∈ (ctrl.entered line).headers.entries) :
    e ∈ ctrl.headers.entries ∨ e.value = ctrl.blocks.length ∧
      (e.key = line.name ctrl.blocks.length ∨ ∃ old ∈ ctrl.headers.entries, e.key = old.key) := by
  unfold entered at he
  cases hget : (ctrl.copyLine line).headers.entryGet (line.name ctrl.blocks.length) with
  | none =>
    rw [storeHeader_new hget] at he
    change e ∈ (ctrl.headers.hashmapPut (line.name ctrl.blocks.length) line.entryOk line.callocOk
      ctrl.blocks.length).1.entries at he
    cases hok : line.entryOk with
    | true =>
      rw [hok] at he
      have hperm := (hashmapPut_absent line.callocOk ctrl.blocks.length hw hget).2.1
      rcases List.mem_cons.mp (hperm.mem_iff.mp he) with rfl | he
      · exact .inr ⟨rfl, .inl rfl⟩
      · exact .inl he
    | false =>
      rw [hok, hashmapPut, show ctrl.headers.entryGet _ = none from hget] at he
      exact .inl he
  | some old =>
    obtain ⟨front, entry, rest, hentries, hat, -, hset⟩ := entryGet_some hget
    rw [storeHeader_old hget hat] at he
    change e ∈ (ctrl.headers.setValue old ctrl.blocks.length).entries at he
    rw [show (ctrl.headers.setValue old ctrl.blocks.length).entries = _ from hset _] at he
    have hold : entry ∈ ctrl.headers.entries := by
      rw [show ctrl.headers.entries = _ from hentries]
      exact List.mem_append_right _ List.mem_cons_self
    rcases List.mem_append.mp he with he | he
    · exact .inl (by rw [show ctrl.headers.entries = _ from hentries]; simp [he])
    · rcases List.mem_cons.mp he with rfl | he
      · exact .inr ⟨rfl, .inr ⟨entry, hold, rfl⟩⟩
      · exact .inl (by rw [show ctrl.headers.entries = _ from hentries]; simp [he])

theorem length_blocks_entered : (ctrl.entered line).blocks.length = ctrl.blocks.length + 1 :=
  length_blocks_storeHeader

theorem valueText_entered (p : Nat) :
    (ctrl.entered line).valueText p = (ctrl.copyLine line).valueText p := valueText_storeHeader p

/-- A block that is added leads nowhere. -/
theorem refOf_of_append {ctrl' : CurlData} {text : List UInt8} {p q : Nat}
    (hblocks : ctrl'.blocks = ctrl.blocks ++ [⟨none, text⟩]) (h : ctrl'.refOf p = some q) :
    ctrl.refOf p = some q := by
  rw [refOf, hblocks] at h
  rcases Nat.lt_or_ge p ctrl.blocks.length with hlt | hge
  · rwa [List.getElem?_append_left hlt] at h
  · rw [List.getElem?_append_right hge] at h
    rcases Nat.eq_zero_or_pos (p - ctrl.blocks.length) with hzero | hpos
    · rw [hzero] at h
      cases h
    · rw [List.getElem?_eq_none hpos] at h
      cases h

/-- The texts are those there were, and the one that is added. -/
theorem valueText_of_append {ctrl' : CurlData} {added text : List UInt8} {p : Nat}
    (hblocks : ctrl'.blocks = ctrl.blocks ++ [⟨none, added⟩]) (h : ctrl'.valueText p = some text) :
    ctrl.valueText p = some text ∨ text = added := by
  rw [valueText, hblocks] at h
  rcases Nat.lt_or_ge p ctrl.blocks.length with hlt | hge
  · rw [List.getElem?_append_left hlt] at h
    exact .inl h
  · rw [List.getElem?_append_right hge] at h
    rcases Nat.eq_zero_or_pos (p - ctrl.blocks.length) with hzero | hpos
    · rw [hzero] at h
      exact .inr (Option.some.inj h).symm
    · rw [List.getElem?_eq_none hpos] at h
      cases h

/-- A pointer behind a header line leads to the new block, or where one led before. -/
theorem refOf_entered {p q : Nat} (h : (ctrl.entered line).refOf p = some q) :
    q = ctrl.blocks.length ∨ ctrl.refOf p = some q ∨
      ∃ e ∈ ctrl.headers.entries, ctrl.refOf e.value = some q := by
  unfold entered at h
  cases hget : (ctrl.copyLine line).headers.entryGet (line.name ctrl.blocks.length) with
  | none =>
    rw [storeHeader_new hget] at h
    change ((ctrl.copyLine line).setRef ctrl.blocks.length (some ctrl.blocks.length)).refOf p = _ at h
    rw [refOf_setRef] at h
    split at h
    · exact .inl (Option.some.inj h).symm
    · exact .inr (.inl (refOf_of_append rfl h))
  | some old =>
    obtain ⟨front, entry, rest, hentries, hat, -, -⟩ := entryGet_some hget
    have hold : entry ∈ ctrl.headers.entries := by
      rw [show ctrl.headers.entries = _ from hentries]
      exact List.mem_append_right _ List.mem_cons_self
    rw [storeHeader_old hget hat] at h
    change (((ctrl.copyLine line).setRef ctrl.blocks.length
      ((ctrl.copyLine line).refOf entry.value)).setRef entry.value
        (some ctrl.blocks.length)).refOf p = _ at h
    rw [refOf_setRef] at h
    split at h
    · exact .inl (Option.some.inj h).symm
    · rw [refOf_setRef] at h
      split at h
      · exact .inr (.inr ⟨entry, hold, refOf_of_append rfl h⟩)
      · exact .inr (.inl (refOf_of_append rfl h))

theorem wellFormed_entered (hw : ctrl.headers.WellFormed) :
    (ctrl.entered line).headers.WellFormed := by
  unfold entered
  cases hget : (ctrl.copyLine line).headers.entryGet (line.name ctrl.blocks.length) with
  | none =>
    rw [storeHeader_new hget]
    show (ctrl.headers.hashmapPut (line.name ctrl.blocks.length) line.entryOk line.callocOk
      ctrl.blocks.length).1.WellFormed
    cases line.entryOk with
    | true => exact (hashmapPut_absent line.callocOk ctrl.blocks.length hw hget).1
    | false =>
      rw [hashmapPut, show ctrl.headers.entryGet _ = none from hget]
      exact hw
  | some old =>
    obtain ⟨-, entry, -, -, hat, -, -⟩ := entryGet_some hget
    rw [storeHeader_old hget hat]
    exact hw.setValue hget _

/-- The entries lead to blocks from `base` on, and these to one another. -/
structure Mapped (base : Nat) (ctrl : CurlData) : Prop where
  wellFormed : ctrl.headers.WellFormed
  base_le : base ≤ ctrl.blocks.length
  values : ∀ e ∈ ctrl.headers.entries, base ≤ e.value
  refs : ∀ p q, base ≤ p → ctrl.refOf p = some q → base ≤ q
  int : ctrl.maxHeaderLength < 2 ^ 16

/-- The maximum is kept for every text that has been entered. -/
structure Noted (base : Nat) (ctrl : CurlData) : Prop extends Mapped base ctrl where
  names : ∀ e ∈ ctrl.headers.entries, e.key.chars.length ≤ ctrl.maxHeaderLength
  texts : ∀ p text, base ≤ p → ctrl.valueText p = some text → text.length ≤ ctrl.maxHeaderLength

section Kept
variable {base : Nat}

theorem noteLength_lt (n : Nat) (h : ctrl.maxHeaderLength < 2 ^ 16) :
    (ctrl.noteLength n).maxHeaderLength < 2 ^ 16 := by
  rw [noteLength_eq]
  dsimp only [toUInt16]
  split <;> omega

/-- A length that fits a `uint16_t` is noted. -/
theorem le_noteLength {n : Nat} (hn : n < 2 ^ 16) :
    n ≤ (ctrl.noteLength n).maxHeaderLength ∧
      ctrl.maxHeaderLength ≤ (ctrl.noteLength n).maxHeaderLength := by
  rw [noteLength_eq]
  dsimp only [toUInt16]
  split <;> omega

theorem Noted.of_reset (h : ctrl.IsReset) (hint : ctrl.maxHeaderLength < 2 ^ 16) :
    Noted ctrl.blocks.length ctrl where
  wellFormed := h.wellFormed
  base_le := Nat.le_refl _
  values := by simp [h.entries]
  refs := by
    intro p q hp href
    rw [refOf, List.getElem?_eq_none hp] at href
    cases href
  int := hint
  names := by simp [h.entries]
  texts := by
    intro p text hp htext
    rw [valueText, List.getElem?_eq_none hp] at htext
    cases htext

/-- **Every line leaves the map and the blocks in order.** -/
theorem Mapped.step (h : Mapped base ctrl) (line : HeaderLine) :
    Mapped base (ctrl.headerCallback line).1 := by
  cases hs : line.isSpecial with
  | true =>
    obtain ⟨hheaders, hblocks, hmax⟩ := @headerCallback_special ctrl line hs
    refine ⟨?_, ?_, ?_, ?_, hmax ▸ h.int⟩
    · rcases hheaders with hheaders | hheaders
      · rw [hheaders]
        exact h.wellFormed
      · rw [hheaders]
        exact h.wellFormed.hashmapClear
    · rcases hblocks with hblocks | hblocks
      · rw [hblocks]
        exact h.base_le
      · rw [hblocks, List.length_append]
        exact Nat.le_add_right_of_le h.base_le
    · rcases hheaders with hheaders | hheaders
      · rw [hheaders]
        exact h.values
      · rw [hheaders, entries_hashmapClear]
        exact fun e he => nomatch he
    · intro p q hp href
      rcases hblocks with hblocks | hblocks
      · exact h.refs p q hp (refOf_congr hblocks ▸ href)
      · exact h.refs p q hp (refOf_of_append hblocks href)
  | false =>
    obtain ⟨hheaders, hblocks, hmax⟩ := @headerCallback_enters ctrl line hs
    refine ⟨?_, ?_, ?_, ?_, hmax ▸ noteLength_lt _ (noteLength_lt _ h.int)⟩
    · rw [hheaders]
      exact wellFormed_entered h.wellFormed
    · rw [hblocks, length_blocks_entered]
      exact Nat.le_succ_of_le h.base_le
    · intro e he
      rw [hheaders] at he
      rcases mem_entries_entered h.wellFormed he with he | ⟨hvalue, -⟩
      · exact h.values e he
      · rw [hvalue]
        exact h.base_le
    · intro p q hp href
      rw [refOf_congr hblocks] at href
      rcases refOf_entered href with rfl | href | ⟨e, he, href⟩
      · exact h.base_le
      · exact h.refs p q hp href
      · exact h.refs e.value q (h.values e he) href

/-- **A line whose texts are shorter than 65536 bytes is noted.** -/
theorem Noted.step (h : Noted base ctrl) {line : HeaderLine}
    (hfits : line.isSpecial = false →
      line.trimmedKey.length < 2 ^ 16 ∧ line.trimmedValue.length < 2 ^ 16) :
    Noted base (ctrl.headerCallback line).1 := by
  have hmapped := h.toMapped.step line
  cases hs : line.isSpecial with
  | true =>
    obtain ⟨hheaders, hblocks, hmax⟩ := @headerCallback_special ctrl line hs
    refine ⟨hmapped, ?_, ?_⟩
    · rcases hheaders with hheaders | hheaders
      · rw [hheaders, hmax]
        exact h.names
      · rw [hheaders, entries_hashmapClear]
        exact fun e he => nomatch he
    · intro p text hp htext
      rw [hmax]
      rcases hblocks with hblocks | hblocks
      · exact h.texts p text hp (by rwa [valueText, hblocks] at htext)
      · rcases valueText_of_append hblocks htext with htext | rfl
        · exact h.texts p text hp htext
        · exact Nat.zero_le _
  | false =>
    obtain ⟨hheaders, hblocks, hmax⟩ := @headerCallback_enters ctrl line hs
    obtain ⟨hkey, hvalue⟩ := hfits hs
    obtain ⟨hkeyNoted, hkeyGrows⟩ := @le_noteLength ctrl _ hkey
    obtain ⟨hvalueNoted, hvalueGrows⟩ := @le_noteLength (ctrl.noteLength line.trimmedKey.length) _ hvalue
    have hcut (text : List UInt8) : (cString text).length ≤ text.length :=
      (List.takeWhile_prefix _).length_le
    refine ⟨hmapped, fun e he => ?_, fun p text hp htext => ?_⟩
    · rw [hheaders] at he
      rw [hmax]
      refine Nat.le_trans ?_ hvalueGrows
      rcases mem_entries_entered h.wellFormed he with he | ⟨-, hname | ⟨old, hold, hname⟩⟩
      · exact (h.names e he).trans hkeyGrows
      · rw [hname]
        exact (hcut _).trans hkeyNoted
      · rw [hname]
        exact (h.names old hold).trans hkeyGrows
    · rw [hmax]
      have htext' : (ctrl.entered line).valueText p = some text := by
        rwa [valueText, hblocks] at htext
      rw [valueText_entered] at htext'
      rcases valueText_of_append rfl htext' with htext' | rfl
      · exact ((h.texts p text hp htext').trans hkeyGrows).trans hvalueGrows
      · exact (hcut _).trans hvalueNoted

/-- What an entry leads to lies behind the base. -/
theorem Mapped.leads (h : Mapped base ctrl) {e : Entry CString Nat}
    (he : e ∈ ctrl.headers.entries) {block : Nat} (hleads : ctrl.Leads e block) : base ≤ block := by
  induction hleads with
  | refl => exact h.values e he
  | tail _ href ih => exact h.refs _ _ ih href

/-- The traversal visits what can be reached. -/
theorem reached_of_walk {next : Nat → Option Nat} {first start : Nat} :
    ∀ {fuel p : Nat} {blocks : List Nat}, walk next first fuel p = some blocks →
      Relation.ReflTransGen (fun p q => next p = some q) start p →
        ∀ x ∈ blocks, Relation.ReflTransGen (fun p q => next p = some q) start x
  | fuel + 1, p, blocks, h, hp, x, hx => by
      rw [walk] at h
      cases hnext : next p with
      | none => rw [hnext] at h; cases h
      | some q =>
        rw [hnext] at h
        dsimp only at h
        split at h
        · cases h
          rw [List.mem_singleton.mp hx]
          exact hp
        · obtain ⟨rest, hrest, rfl⟩ := Option.map_eq_some_iff.mp h
          rcases List.mem_cons.mp hx with rfl | hx
          · exact hp
          · exact reached_of_walk hrest (hp.tail hnext) x hx

theorem Noted.covered (h : Noted base ctrl) : ctrl.Covered where
  names := h.names
  values := fun _ he _ hleads text htext => h.texts _ text (h.leads he hleads) htext
  converted := by
    intro e he text htext
    rcases List.mem_cons.mp htext with rfl | htext
    · exact h.names e he
    · obtain ⟨block, hblock, rfl⟩ := List.mem_map.mp htext
      cases hring : ctrl.ringOf e with
      | none => rw [hring] at hblock; cases hblock
      | some blocks =>
        rw [hring, Option.getD_some] at hblock
        obtain ⟨first, hfirst, hwalk⟩ := Option.bind_eq_some_iff.mp hring
        have hleads : ctrl.Leads e block := reached_of_walk hwalk (.single hfirst) block hblock
        cases hvalue : ctrl.valueText block with
        | none => exact Nat.zero_le _
        | some text => exact h.texts _ text (h.leads he hleads) hvalue

/-- The new block is the value of an entry. -/
theorem exists_entry_entered (hw : ctrl.headers.WellFormed) (hok : line.entryOk = true) :
    ∃ e ∈ (ctrl.entered line).headers.entries, e.value = ctrl.blocks.length := by
  unfold entered
  cases hget : (ctrl.copyLine line).headers.entryGet (line.name ctrl.blocks.length) with
  | none =>
    rw [storeHeader_new hget, hok]
    have hperm := (hashmapPut_absent line.callocOk ctrl.blocks.length hw hget).2.1
    exact ⟨_, hperm.mem_iff.mpr List.mem_cons_self, rfl⟩
  | some old =>
    obtain ⟨front, entry, rest, -, hat, -, hset⟩ := entryGet_some hget
    rw [storeHeader_old hget hat]
    refine ⟨{ entry with value := ctrl.blocks.length }, ?_, rfl⟩
    show _ ∈ (ctrl.headers.setValue old ctrl.blocks.length).entries
    rw [show (ctrl.headers.setValue old ctrl.blocks.length).entries = _ from hset _]
    exact List.mem_append_right _ List.mem_cons_self

/-- A value that is entered and covered is shorter than 65536 bytes. -/
theorem Mapped.value_lt (h : Mapped base ctrl) (hs : line.isSpecial = false)
    (hok : line.entryOk = true) (hcovered : (ctrl.headerCallback line).1.Covered) :
    line.value.length < 2 ^ 16 := by
  obtain ⟨hheaders, hblocks, -⟩ := @headerCallback_enters ctrl line hs
  obtain ⟨e, he, hvalue⟩ := exists_entry_entered h.wellFormed hok
  have htext : (ctrl.headerCallback line).1.valueText e.value = some line.value := by
    rw [hvalue, valueText, hblocks, ← valueText, valueText_entered]
    exact valueText_copyLine_new ctrl line
  have hle := hcovered.values e (hheaders ▸ he) e.value .refl _ htext
  exact Nat.lt_of_le_of_lt hle (h.step line).int

end Kept

/-- The texts of the line fit the type of the maximum. -/
def Fits (line : HeaderLine) : Prop :=
  line.isSpecial = false → line.trimmedKey.length < 2 ^ 16 ∧ line.trimmedValue.length < 2 ^ 16

/-- **The buffer for header strings is never overrun** in any state a run of lines
reaches, if no header line has a text of 65536 bytes or more; and if it is not, no value
that has been entered was that long. -/
theorem buffer_covers (h : ctrl.IsReset) (hint : ctrl.maxHeaderLength < 2 ^ 16)
    (lines : List HeaderLine) :
    ((∀ line ∈ lines, Fits line) → ∀ before, before <+: lines → (ctrl.receive before).Covered) ∧
      ((∀ before, before <+: lines → (ctrl.receive before).Covered) →
        ∀ line ∈ lines, line.isSpecial = false → line.entryOk = true →
          line.value.length < 2 ^ 16) := by
  constructor
  · intro hfits before hbefore
    have hnoted : Noted ctrl.blocks.length (ctrl.receive before) :=
      @Runs.run_invariant _ _ (Noted ctrl.blocks.length) Fits _
        (fun _ _ hnoted hline => hnoted.step hline) before ctrl (Noted.of_reset h hint)
        fun line hline => hfits line (hbefore.subset hline)
    exact hnoted.covered
  · intro hcovered line hline hs hok
    obtain ⟨earlier, later, happend⟩ := List.append_of_mem hline
    have hmapped : Mapped ctrl.blocks.length (ctrl.receive earlier) :=
      @Runs.run_invariant _ _ (Mapped ctrl.blocks.length) (fun _ => True) _
        (fun _ line hmapped _ => hmapped.step line) earlier ctrl (Noted.of_reset h hint).toMapped
        fun _ _ => trivial
    have hstep : ctrl.receive (earlier ++ [line]) =
        ((ctrl.receive earlier).headerCallback line).1 := Runs.run_append _ _ _ _
    refine hmapped.value_lt hs hok (hstep ▸ hcovered (earlier ++ [line]) ⟨later, ?_⟩)
    rw [happend, List.append_assoc]
    rfl

/-- The header of a redirect fits. -/
theorem buffer_covers_redirect : (nativeCreate.receive
    [.ofBytes (ascii "Location" ++ 58 :: (ascii "/x" ++ [13, 10]))]).Covered :=
  (buffer_covers isReset_nativeCreate (by decide) _).1
    (fun line hline => by rw [List.mem_singleton.mp hline]; exact fun _ => by decide)
    _ (List.prefix_refl _)

theorem receive_singleton (ctrl : CurlData) (line : HeaderLine) :
    ctrl.receive [line] = (ctrl.headerCallback line).1 := rfl

/-- The line `a:xx…x`, with `n` letters in its value. -/
def longLine (n : Nat) : HeaderLine := .ofBytes (97 :: 58 :: (List.replicate n 120 ++ [13, 10]))

section Long
variable (n : Nat)

theorem colon_longLine : (longLine n).colon = 1 := by
  simp [HeaderLine.colon, longLine, HeaderLine.ofBytes, List.findIdx_cons]

theorem trimmedValue_longLine : (longLine n).trimmedValue = List.replicate n 120 := by
  have hlength : (longLine n).bufferLength = n + 4 := by
    simp [HeaderLine.bufferLength, longLine, HeaderLine.ofBytes]
  have hrange : (longLine n).valueRange = List.replicate n 120 ++ [13] ++ [10] ++ [0] := by
    rw [HeaderLine.valueRange_eq (by rw [colon_longLine]; omega), colon_longLine]
    simp [longLine, HeaderLine.ofBytes]
  have hstart : wspTrimStart (List.replicate n 120 ++ [13] ++ [10] ++ [0]) =
      List.replicate n 120 ++ [13] ++ [10] ++ [0] := by
    cases n with
    | zero => rfl
    | succ n => exact List.dropWhile_cons_of_neg (by decide)
  have hlast : (List.replicate n (120 : UInt8)).rdropWhile trimmedAtEnd = List.replicate n 120 := by
    cases n with
    | zero => rfl
    | succ n =>
      rw [List.replicate_succ']
      exact List.rdropWhile_concat_neg _ _ _ (by decide)
  rw [HeaderLine.trimmedValue_eq, hrange, wspTrim, hstart, wspTrimEnd,
    List.rdropWhile_concat_pos _ _ _ (by decide), List.rdropWhile_concat_pos _ _ _ (by decide),
    List.rdropWhile_concat_pos _ _ _ (by decide), hlast]

theorem value_longLine : (longLine n).value = List.replicate n 120 := by
  rw [HeaderLine.value, trimmedValue_longLine]
  refine cString_eq_self_iff.mpr fun hmem => ?_
  exact absurd (List.eq_of_mem_replicate hmem) (by decide)

theorem longLine_not_special : (longLine n).isSpecial = false :=
  isSpecial_of_colon (List.mem_cons_of_mem _ List.mem_cons_self)

end Long

/-- The maximum goes from 1 to 0, and the buffer has no room for anything. -/
theorem not_buffer_covers :
    (nativeCreate.receive [longLine (2 ^ 16)]).maxHeaderLength = 0 ∧
      ¬ (nativeCreate.receive [longLine (2 ^ 16)]).Covered := by
  have hkey : (longLine (2 ^ 16)).trimmedKey = [97] := by
    rw [HeaderLine.trimmedKey, colon_longLine]
    rfl
  rw [receive_singleton]
  refine ⟨?_, fun hcovered => ?_⟩
  · have hone : (nativeCreate.noteLength 1).maxHeaderLength = 1 := rfl
    rw [(headerCallback_enters (longLine_not_special _)).2.2, hkey, trimmedValue_longLine,
      List.length_replicate, List.length_singleton, noteLength_eq]
    dsimp only
    rw [hone, if_pos (by decide)]
    rfl
  · have hshort := ((Noted.of_reset isReset_nativeCreate (by decide)).toMapped).value_lt
      (longLine_not_special (2 ^ 16)) rfl hcovered
    rw [value_longLine, List.length_replicate] at hshort
    exact Nat.lt_irrefl _ hshort

end CurlData
end Chttpc
