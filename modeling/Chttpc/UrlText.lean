import Chttpc.MutableUrl

/-!
# `MutableUrl` as a string

The invariant is `Represents`: the array is the text, followed by zeros.  A call
that names a range of its source keeps it, whatever it is.  Which text it then
represents is where the overloads of `append` differ: behind `appendString` stand
the characters up to `count`, and as many zeros as the range had been shifted.
-/

namespace Chttpc

/-- The text stands at the front of the array, and there are zeros behind it. -/
structure Represents (url : MutableUrl) (text : JString) : Prop where
  length : url.length = text.length
  buffer : ∃ hidden, url.buffer = text ++ List.replicate hidden 0

/-- The call copies the range it is given: a range that starts at an index is cut by
that many characters, which must then be zeros. -/
def UrlCall.CopiesRange : UrlCall → Prop
  | .appendString string off count => off ≤ count ∧ slice string count off = List.replicate off.toNat 0
  | _ => True

/-! ## Ranges and arrays -/

section Arrays
variable {chars text : JString} {off count : Int} {hidden : Nat}

theorem length_slice (hoff : 0 ≤ off) (hcount : 0 ≤ count) (hrange : off + count ≤ chars.length) :
    ((slice chars off count).length : Int) = count := by
  rw [slice, List.length_take, List.length_drop]
  omega

/-- A range, cut at an index. -/
theorem slice_split (hoff : 0 ≤ off) (hle : off ≤ count) :
    slice chars off count = slice chars off (count - off) ++ slice chars count off := by
  obtain ⟨o, rfl⟩ := Int.eq_ofNat_of_zero_le hoff
  obtain ⟨c, rfl⟩ := Int.eq_ofNat_of_zero_le (Int.le_trans hoff hle)
  obtain ⟨d, rfl⟩ := Nat.exists_eq_add_of_le (Int.ofNat_le.mp hle)
  have hd : (((o + d : Nat) : Int) - o).toNat = d := by omega
  simp only [slice, hd, Int.toNat_natCast]
  rw [← List.drop_drop, ← List.take_add, Nat.add_comm d o]

theorem replaceFrom_text :
    replaceFrom (text ++ List.replicate hidden 0) text.length chars =
      text ++ chars ++ List.replicate (hidden - chars.length) 0 := by
  have hdrop : (text ++ List.replicate hidden (0 : UInt16)).drop (text.length + chars.length) =
      List.replicate (hidden - chars.length) 0 := by
    rw [← List.drop_drop, List.drop_left, List.drop_replicate]
  rw [replaceFrom, Int.toNat_natCast, List.take_left, hdrop]

/-- One round of the loop: the next character goes where the next zero is. -/
theorem copyChars_step {o i : Nat} (hchar : o + i < chars.length) (hroom : i < hidden) :
    ∃ ch, charAt chars ((o : Int) + i) = some ch ∧
      store (text ++ slice chars o i ++ List.replicate (hidden - i) 0) ((text.length : Int) + i) ch =
        some (text ++ slice chars o ((i + 1 : Nat) : Int) ++ List.replicate (hidden - (i + 1)) 0) := by
  obtain ⟨rest, hrest⟩ := Nat.exists_eq_add_of_lt hroom
  have hzeros : hidden - i = rest + 1 := by omega
  have hlength : (text ++ slice chars o i).length = text.length + i := by
    have hslice : ((slice chars o i).length : Int) = i :=
      length_slice (by omega) (by omega) (by omega)
    rw [List.length_append]
    omega
  have hnext : slice chars o ((i + 1 : Nat) : Int) = slice chars o i ++ [chars[o + i]] := by
    simp only [slice, Int.toNat_natCast]
    rw [List.take_add_one, List.getElem?_drop, List.getElem?_eq_getElem hchar]
    rfl
  refine ⟨chars[o + i], ?_, ?_⟩
  · rw [charAt, if_pos (by omega)]
    exact List.getElem?_eq_getElem hchar
  · have hin : 0 ≤ (text.length : Int) + i ∧ (text.length : Int) + i <
        (text ++ slice chars o i ++ List.replicate (hidden - i) 0).length := by
      rw [List.length_append, hlength, List.length_replicate]
      omega
    have hat : ((text.length : Int) + i).toNat = (text ++ slice chars o i).length := by omega
    rw [store, if_pos hin, hat, hzeros, List.replicate_succ, List.set_append_right _ _ le_rfl,
      Nat.sub_self, List.set_cons_zero, hnext, show hidden - (i + 1) = rest by omega]
    simp

/-- **The loop of `append(CharSequence, int, int)`** copies the rest of the range. -/
theorem copyChars_spec {o remaining : Nat} :
    ∀ {i : Nat}, o + (i + remaining) ≤ chars.length → i + remaining ≤ hidden →
      MutableUrl.copyChars chars o text.length remaining i
          (text ++ slice chars o i ++ List.replicate (hidden - i) 0) =
        (text ++ slice chars o ((i + remaining : Nat) : Int) ++
          List.replicate (hidden - (i + remaining)) 0, none) := by
  induction remaining with
  | zero =>
    intro i _ _
    rfl
  | succ remaining ih =>
    intro i hchars hroom
    obtain ⟨ch, hchar, hstore⟩ :=
      copyChars_step (show o + i < chars.length by omega) (show i < hidden by omega)
    rw [MutableUrl.copyChars, hchar]
    dsimp only
    rw [hstore]
    dsimp only
    have hrest := @ih (i + 1) (by omega) (by omega)
    rw [show i + 1 + remaining = i + (remaining + 1) by omega] at hrest
    exact hrest

end Arrays

namespace Represents
variable {url : MutableUrl} {text : JString}

theorem fits (h : Represents url text) : url.length ≤ url.buffer.length := by
  obtain ⟨hidden, hbuffer⟩ := h.buffer
  rw [h.length, hbuffer, List.length_append]
  omega

theorem toString_eq (h : Represents url text) : url.toString = some text := by
  obtain ⟨hidden, hbuffer⟩ := h.buffer
  have hlength := h.length
  rw [MutableUrl.toString, if_pos ⟨by omega, h.fits⟩, hlength, hbuffer, Int.toNat_natCast,
    List.take_left]

/-- **Growing keeps the text** and makes the room that is asked for, up to the limit. -/
theorem ensureBufferSpace (h : Represents url text) {additions : Int} (hadd : 0 ≤ additions)
    (hlimit : (text.length : Int) + additions ≤ MutableUrl.maxArrayLength) :
    ∃ url', url.ensureBufferSpace additions = .ok url' ∧ Represents url' text ∧
      (text.length : Int) + additions ≤ url'.buffer.length := by
  obtain ⟨hidden, hbuffer⟩ := h.buffer
  have hmax : MutableUrl.maxArrayLength = 2147483615 := rfl
  have hsum : toInt32 (url.length + additions) = text.length + additions := by
    rw [h.length]
    obtain ⟨n, hn⟩ := Int.eq_ofNat_of_zero_le (show 0 ≤ (text.length : Int) + additions by omega)
    rw [hn, toInt32_of_nat (by omega)]
  unfold MutableUrl.ensureBufferSpace
  rw [hsum]
  by_cases hgrow : (url.buffer.length : Int) < text.length + additions
  swap
  · exact ⟨url, if_neg hgrow, h, by omega⟩
  rw [if_pos hgrow, h.length]
  have hproduct : 0 ≤ MutableUrl.growthProduct url.buffer.length := Int.natCast_nonneg _
  -- the new size is the larger one of two sizes that are both within the limit
  obtain ⟨newSize, hnew, hroom⟩ : ∃ newSize,
      MutableUrl.grow (MutableUrl.growthProduct url.buffer.length) url.buffer.length text.length
        additions = .ok newSize ∧ (text.length : Int) + additions ≤ newSize := by
    unfold MutableUrl.grow
    dsimp only
    rw [if_neg (by omega)]
    exact ⟨_, rfl, by omega⟩
  rw [hnew]
  refine ⟨_, rfl, ⟨rfl, hidden + (newSize.toNat - url.buffer.length), ?_⟩, ?_⟩
  · show copyOf url.buffer newSize = _
    rw [copyOf, List.take_of_length_le (by omega), List.replicate_add, ← List.append_assoc,
      ← hbuffer]
  · show (text.length : Int) + additions ≤ (copyOf url.buffer newSize).length
    rw [copyOf, List.length_append, List.length_replicate, List.length_take]
    omega

/-- Characters written behind the text, and a count that may go beyond them. -/
theorem extended {chars : JString} {count : Int} (h : Represents url text)
    (hle : (chars.length : Int) ≤ count) (hroom : (text.length : Int) + count ≤ url.buffer.length)
    (hlimit : (text.length : Int) + count ≤ MutableUrl.maxArrayLength) :
    Represents ⟨replaceFrom url.buffer url.length chars, toInt32 (url.length + count)⟩
      (text ++ chars ++ List.replicate (count.toNat - chars.length) 0) := by
  obtain ⟨hidden, hbuffer⟩ := h.buffer
  have hmax : MutableUrl.maxArrayLength = 2147483615 := rfl
  have hsize := congrArg List.length hbuffer
  rw [List.length_append, List.length_replicate] at hsize
  have hlength : toInt32 (url.length + count) = ((text.length + count.toNat : Nat) : Int) := by
    rw [← toInt32_of_nat (show text.length + count.toNat < 2 ^ 31 by omega), h.length]
    congr 1
    omega
  refine ⟨?_, hidden - count.toNat, ?_⟩
  · show toInt32 (url.length + count) = _
    rw [hlength, List.length_append, List.length_append, List.length_replicate]
    omega
  · show replaceFrom url.buffer url.length chars = _
    rw [h.length, hbuffer, replaceFrom_text, List.append_assoc _ (List.replicate _ _),
      ← List.replicate_add]
    congr 2
    omega

/-- A method runs on an object with room for what it appends. -/
theorem withSpace (h : Represents url text) {additions : Int} (hadd : 0 ≤ additions)
    (hlimit : (text.length : Int) + additions ≤ MutableUrl.maxArrayLength) :
    ∃ url', Represents url' text ∧ (text.length : Int) + additions ≤ url'.buffer.length ∧
      ∀ rest, url.withSpace additions rest = rest url' := by
  obtain ⟨url', hspace, hrep, hroom⟩ := h.ensureBufferSpace hadd hlimit
  refine ⟨url', hrep, hroom, fun rest => ?_⟩
  rw [MutableUrl.withSpace, hspace]

/-! ## The methods -/

theorem appendChar (h : Represents url text) (ch : UInt16)
    (hlimit : (text.length : Int) + 1 ≤ MutableUrl.maxArrayLength) :
    ∃ url', url.appendChar ch = (url', none) ∧ Represents url' (text ++ [ch]) := by
  obtain ⟨grown, hrep, hroom, hrun⟩ := h.withSpace (by decide) hlimit
  obtain ⟨hidden, hbuffer⟩ := hrep.buffer
  have hsize := congrArg List.length hbuffer
  rw [List.length_append, List.length_replicate] at hsize
  obtain ⟨rest, rfl⟩ := Nat.exists_eq_succ_of_ne_zero (show hidden ≠ 0 by omega)
  have hstore : store grown.buffer grown.length ch =
      some (text ++ [ch] ++ List.replicate rest 0) := by
    have hlength := hrep.length
    rw [store, if_pos (by omega), hlength, hbuffer, Int.toNat_natCast, List.replicate_succ,
      List.set_append_right _ _ le_rfl, Nat.sub_self, List.set_cons_zero]
    simp
  have hmax : MutableUrl.maxArrayLength = 2147483615 := rfl
  have hlength : toInt32 (grown.length + 1) = ((text.length + 1 : Nat) : Int) := by
    rw [hrep.length, ← toInt32_of_nat (show text.length + 1 < 2 ^ 31 by omega)]
    rfl
  refine ⟨⟨text ++ [ch] ++ List.replicate rest 0, toInt32 (grown.length + 1)⟩, ?_, ?_, rest, rfl⟩
  · rw [MutableUrl.appendChar, hrun, hstore]
  · rw [hlength, List.length_append, List.length_singleton]

section Append
variable {chars : JString} {off count : Int}

/-- **What `append(String, int, int)` does**: it stops at `count`, and zeros make up for
what is missing; a range that starts behind `count` is refused. -/
theorem appendString (h : Represents url text) (hoff : 0 ≤ off) (hcount : 0 ≤ count)
    (hrange : off + count ≤ chars.length)
    (hlimit : (text.length : Int) + count ≤ MutableUrl.maxArrayLength) :
    (off ≤ count → ∃ url', url.appendString chars off count = (url', none) ∧
      Represents url' (text ++ slice chars off (count - off) ++ List.replicate off.toNat 0)) ∧
    (count < off → (url.appendString chars off count).2 = some .indexOutOfBounds) := by
  obtain ⟨grown, hrep, hroom, hrun⟩ := h.withSpace hcount hlimit
  have hlength := hrep.length
  rw [MutableUrl.appendString, hrun]
  constructor
  · intro hle
    have hslice : ((slice chars off (count - off)).length : Int) = count - off :=
      length_slice hoff (by omega) (by omega)
    have hzeros : count.toNat - (slice chars off (count - off)).length = off.toNat := by omega
    have hextended : Represents ⟨replaceFrom grown.buffer grown.length
        (slice chars off (count - off)), toInt32 (grown.length + count)⟩ _ :=
      hrep.extended (by omega) hroom hlimit
    rw [hzeros] at hextended
    rw [getChars, if_pos (by omega)]
    exact ⟨_, rfl, hextended⟩
  · intro hlt
    rw [getChars, if_neg (by omega)]
    rfl

theorem appendCharSequence (h : Represents url text) (hoff : 0 ≤ off) (hcount : 0 ≤ count)
    (hrange : off + count ≤ chars.length)
    (hlimit : (text.length : Int) + count ≤ MutableUrl.maxArrayLength) :
    ∃ url', url.appendCharSequence chars off count = (url', none) ∧
      Represents url' (text ++ slice chars off count) := by
  obtain ⟨grown, hrep, hroom, hrun⟩ := h.withSpace hcount hlimit
  obtain ⟨hidden, hbuffer⟩ := hrep.buffer
  have hsize := congrArg List.length hbuffer
  rw [List.length_append, List.length_replicate] at hsize
  obtain ⟨o, rfl⟩ := Int.eq_ofNat_of_zero_le hoff
  obtain ⟨n, rfl⟩ := Int.eq_ofNat_of_zero_le hcount
  have hloop : MutableUrl.copyChars chars o text.length n ((0 : Nat) : Int)
      (text ++ slice chars o ((0 : Nat) : Int) ++ List.replicate (hidden - 0) 0) =
        (text ++ slice chars o ((0 + n : Nat) : Int) ++ List.replicate (hidden - (0 + n)) 0, none) :=
    copyChars_spec (by omega) (by omega)
  have hnil : slice chars o ((0 : Nat) : Int) = [] := List.take_zero
  rw [hnil, List.append_nil, Nat.sub_zero, Nat.zero_add] at hloop
  have hmax : MutableUrl.maxArrayLength = 2147483615 := rfl
  have hslice : ((slice chars o n).length : Int) = n := length_slice hoff hcount hrange
  have hend : toInt32 (grown.length + n) = ((text ++ slice chars o n).length : Int) := by
    rw [hrep.length, List.length_append]
    have hsum := toInt32_of_nat (show text.length + n < 2 ^ 31 by omega)
    rw [Int.natCast_add] at hsum
    rw [hsum]
    omega
  refine ⟨⟨text ++ slice chars o n ++ List.replicate (hidden - n) 0, toInt32 (grown.length + n)⟩,
    ?_, hend, hidden - n, rfl⟩
  rw [MutableUrl.appendCharSequence, hrun, hrep.length, hbuffer, Int.toNat_natCast]
  rw [show (0 : Int) = ((0 : Nat) : Int) from rfl, hloop]

theorem appendArray (h : Represents url text) (hoff : 0 ≤ off) (hcount : 0 ≤ count)
    (hrange : off + count ≤ chars.length)
    (hlimit : (text.length : Int) + count ≤ MutableUrl.maxArrayLength) :
    ∃ url', url.appendArray chars off count = (url', none) ∧
      Represents url' (text ++ slice chars off count) := by
  obtain ⟨grown, hrep, hroom, hrun⟩ := h.withSpace hcount hlimit
  have hlength := hrep.length
  have hslice : ((slice chars off count).length : Int) = count := length_slice hoff hcount hrange
  have hzeros : count.toNat - (slice chars off count).length = 0 := by omega
  have hextended : Represents ⟨replaceFrom grown.buffer grown.length (slice chars off count),
      toInt32 (grown.length + count)⟩ _ := hrep.extended (by omega) hroom hlimit
  rw [hzeros, List.replicate_zero, List.append_nil] at hextended
  rw [MutableUrl.appendArray, hrun, arraycopy, if_pos (by omega)]
  exact ⟨_, rfl, hextended⟩

end Append

/-- Moving the end forward uncovers zeros, moving it back leaves zeros. -/
theorem setLength (h : Represents url text) {newLength : Int} (hnew : 0 ≤ newLength) :
    ∃ url', url.setLength newLength = (url', none) ∧
      Represents url' ((UrlCall.setLength newLength).spec text) := by
  obtain ⟨hidden, hbuffer⟩ := h.buffer
  obtain ⟨n, rfl⟩ := Int.eq_ofNat_of_zero_le hnew
  have hsize := congrArg List.length hbuffer
  rw [List.length_append, List.length_replicate] at hsize
  have hlength := h.length
  have hspec : ((text.take n ++ List.replicate (n - text.length) 0 : JString).length : Int) = n := by
    rw [List.length_append, List.length_take, List.length_replicate]
    omega
  unfold UrlCall.spec MutableUrl.setLength
  dsimp only
  rw [if_neg (by omega), Int.toNat_natCast]
  by_cases hbeyond : (url.buffer.length : Int) < n
  · rw [if_pos hbeyond]
    refine ⟨_, rfl, hspec.symm, 0, ?_⟩
    have htake : text.take n = text := List.take_of_length_le (by omega)
    show copyOf url.buffer n = _
    rw [copyOf, Int.toNat_natCast, List.take_of_length_le (by omega), htake, hbuffer,
      List.append_assoc, ← List.replicate_add, List.replicate_zero, List.append_nil]
    congr 2
    rw [List.length_append, List.length_replicate]
    omega
  rw [if_neg hbeyond]
  by_cases hback : (n : Int) < url.length
  · rw [if_pos hback]
    refine ⟨_, rfl, hspec.symm, text.length - n + hidden, ?_⟩
    show replaceFrom url.buffer n _ = _
    have hzeros : (url.length - n).toNat = text.length - n := by omega
    have hdrop : (text ++ List.replicate hidden (0 : UInt16)).drop (n + (text.length - n)) =
        List.replicate hidden 0 := by
      rw [show n + (text.length - n) = text.length by omega, List.drop_left]
    rw [replaceFrom, hzeros, List.length_replicate, Int.toNat_natCast, hbuffer, hdrop,
      List.take_append_of_le_length (by omega), show n - text.length = 0 by omega,
      List.replicate_zero, List.append_nil, List.append_assoc, ← List.replicate_add]
  · rw [if_neg hback]
    refine ⟨_, rfl, hspec.symm, hidden - (n - text.length), ?_⟩
    show url.buffer = _
    rw [hbuffer, List.take_of_length_le (by omega), List.append_assoc, ← List.replicate_add]
    congr 2
    omega

end Represents

/-! ## Runs -/

/-- What the calls of a run have come to: the object, the exception of the last call,
and the string it should stand for. -/
structure UrlRun where
  url : MutableUrl
  thrown : Option UrlException
  text : JString

namespace UrlRun

/-- A new object. -/
def start : UrlRun := ⟨⟨[], 0⟩, none, []⟩

def step (r : UrlRun) (call : UrlCall) : UrlRun :=
  ⟨(call.run r.url).1, (call.run r.url).2, call.spec r.text⟩

/-- The object cannot be told from the string. -/
structure Agrees (r : UrlRun) : Prop where
  thrown : r.thrown = none
  length : r.url.length = r.text.length
  toString : r.url.toString = some r.text

/-- The object represents the string. -/
def Sound (r : UrlRun) : Prop := r.thrown = none ∧ Represents r.url r.text

theorem Sound.agrees {r : UrlRun} (h : r.Sound) : r.Agrees :=
  ⟨h.1, h.2.length, h.2.toString_eq⟩

theorem sound_of_run {r : UrlRun} {call : UrlCall}
    (h : ∃ url', call.run r.url = (url', none) ∧ Represents url' (call.spec r.text)) :
    (r.step call).Sound := by
  obtain ⟨url', hrun, hrep⟩ := h
  refine ⟨congrArg Prod.snd hrun, ?_⟩
  rw [step, hrun]
  exact hrep

theorem length_append_slice {text chars : JString} {off count : Int} (hoff : 0 ≤ off)
    (hcount : 0 ≤ count) (hrange : off + count ≤ chars.length)
    (hlimit : ((text ++ slice chars off count).length : Int) < MutableUrl.maxArrayLength) :
    (text.length : Int) + count ≤ MutableUrl.maxArrayLength := by
  have hslice : ((slice chars off count).length : Int) = count := length_slice hoff hcount hrange
  rw [List.length_append] at hlimit
  omega

/-- **A call that copies the range it is given keeps the object sound.** -/
theorem Sound.step {r : UrlRun} {call : UrlCall} (h : r.Sound) (hin : call.InRange r.text)
    (hcopies : call.CopiesRange) : (r.step call).Sound := by
  obtain ⟨-, hrep⟩ := h
  obtain ⟨hargs, hlimit⟩ := hin
  apply sound_of_run
  cases call with
  | appendChar ch =>
    refine hrep.appendChar ch ?_
    rw [UrlCall.spec, List.length_append, List.length_singleton] at hlimit
    omega
  | appendString chars off count =>
    obtain ⟨hoff, hcount, hrange⟩ := hargs
    obtain ⟨hle, hzeros⟩ := hcopies
    obtain ⟨url', hrun, hrep'⟩ := (hrep.appendString hoff hcount hrange
      (length_append_slice hoff hcount hrange hlimit)).1 hle
    rw [← hzeros, List.append_assoc, ← slice_split hoff hle] at hrep'
    exact ⟨url', hrun, hrep'⟩
  | appendCharSequence chars off count =>
    obtain ⟨hoff, hcount, hrange⟩ := hargs
    exact hrep.appendCharSequence hoff hcount hrange
      (length_append_slice hoff hcount hrange hlimit)
  | appendArray chars off count =>
    obtain ⟨hoff, hcount, hrange⟩ := hargs
    exact hrep.appendArray hoff hcount hrange (length_append_slice hoff hcount hrange hlimit)
  | setLength newLength => exact hrep.setLength hargs
  | clear =>
    have hspec : (UrlCall.setLength 0).spec r.text = UrlCall.clear.spec r.text := by
      simp [UrlCall.spec]
    obtain ⟨url', hrun, hrep'⟩ := hrep.setLength (show (0 : Int) ≤ 0 by decide)
    rw [hspec] at hrep'
    exact ⟨url', hrun, hrep'⟩
  | release => exact ⟨⟨[], 0⟩, rfl, rfl, 0, rfl⟩

/-- A call that does not copy its range is told apart at once. -/
theorem Sound.not_agrees {r : UrlRun} {call : UrlCall} (h : r.Sound) (hin : call.InRange r.text)
    (hcopies : ¬ call.CopiesRange) : ¬ (r.step call).Agrees := by
  intro hagrees
  obtain ⟨-, hrep⟩ := h
  obtain ⟨hargs, hlimit⟩ := hin
  cases call with
  | appendString chars off count =>
    obtain ⟨hoff, hcount, hrange⟩ := hargs
    obtain ⟨hstops, hrefused⟩ := hrep.appendString hoff hcount hrange
      (length_append_slice hoff hcount hrange hlimit)
    by_cases hle : off ≤ count
    · -- the end of the range is missing, and it is not all zeros
      obtain ⟨url', hrun, hrep'⟩ := hstops hle
      have hstring := hagrees.toString
      rw [UrlRun.step, show (UrlCall.appendString chars off count).run r.url = (url', none) from hrun,
        hrep'.toString_eq] at hstring
      have htext := Option.some.inj hstring
      rw [show (UrlCall.appendString chars off count).spec r.text = r.text ++ slice chars off count
        from rfl, slice_split hoff hle, ← List.append_assoc] at htext
      exact hcopies ⟨hle, (List.append_cancel_left htext).symm⟩
    · have hthrown := hagrees.thrown
      rw [show (r.step (.appendString chars off count)).thrown = some .indexOutOfBounds from
        hrefused (by omega)] at hthrown
      cases hthrown
  | _ => exact hcopies trivial

/-- After each of the calls, made one after another on a new object, it cannot be told from
the string. -/
def RefinesString (calls : List UrlCall) : Prop :=
  ∀ before, before <+: calls → (Runs.run step start before).Agrees

/-- **A `MutableUrl` stands for a string exactly when every `append(String, int, int)` copies
its range**: in every run of the methods on a new object, with arguments in range and
strings below the limit, no call throws, and `length()` and `toString()` are those of the
string, whatever lies in the array. -/
theorem refines_string_iff (calls : List UrlCall)
    (hrange : ∀ before call, before ++ [call] <+: calls →
      call.InRange (Runs.run step start before).text) :
    RefinesString calls ↔ ∀ call ∈ calls, call.CopiesRange := by
  have hiff := Runs.holds_throughout_iff (I := Sound) (P := Agrees) (C := fun _ => UrlCall.CopiesRange)
    (fun r call => call.InRange r.text) step (fun _ => Sound.agrees) (fun _ _ h => h.step)
    (fun _ _ h => h.not_agrees) calls start ⟨rfl, rfl, 0, rfl⟩ hrange
  unfold RefinesString
  rw [hiff]
  constructor
  · intro hall call hcall
    obtain ⟨before, after, rfl⟩ := List.append_of_mem hcall
    exact hall before call ⟨after, by rw [List.append_assoc]; rfl⟩
  · intro hall before call hpre
    exact hall call (Runs.mem_of_concat_prefix hpre)

end UrlRun

/-- `"ab"` from its start, a longer text, and back to its first character. -/
def urlCalls : List UrlCall :=
  [.appendString [97, 98] 0 2, .appendArray [97, 98, 99] 1 2, .setLength 1, .setLength 3]

theorem refines_string_urlCalls : UrlRun.RefinesString urlCalls := by
  refine (UrlRun.refines_string_iff urlCalls ?_).mpr ?_
  · refine Runs.forall_concat_prefix ?_
    decide
  · intro call hcall
    simp only [urlCalls, List.mem_cons, List.not_mem_nil, or_false] at hcall
    rcases hcall with rfl | rfl | rfl | rfl
    · exact ⟨by decide, rfl⟩
    · trivial
    · trivial
    · trivial

/-- The second character of `"ab"`, appended to an empty string: the copy is empty, and a
character that has never been written counts as copied. -/
theorem not_refines_string_secondHalf :
    ¬ UrlRun.RefinesString [.appendString [97, 98] 1 1] := by
  intro h
  have htext := (h _ (List.prefix_refl _)).toString
  revert htext
  decide

end Chttpc
