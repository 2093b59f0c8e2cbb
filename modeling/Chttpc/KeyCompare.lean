import Chttpc.HeaderKey

/-!
# What `hashKeyCompare` makes of two names

`HeaderKey` runs the comparison over memory that goes on behind the terminators.  Here a
pointer is the list of bytes it may still be used to read, the terminator included, and
`none` is a read behind the last of them.

The first string is read one byte a round.  The second is read in groups: a byte above
`0x40` and the two behind it, or a byte up to `0x40` and the one behind it, and the
character that enters the comparison is the last of its group.  `picked` lists these
characters, and with it the loop is a comparison of two lists that goes through the first
one: it answers `false` at the end of the first list, `true` at a difference, and reads too
far when the second list ends earlier.

The answer is `true` at a difference, and yet it is right for equal names: the characters
picked from a name are hardly ever those it starts with.  `compares_keys_iff` has the pairs
for which nothing behind the terminators is read and the answer is right.
-/

namespace Chttpc

/-! ## Going through a list along another one -/

section Through
variable {α : Type*} [DecidableEq α]

/-- Go through `xs` along `ys`, up to the first difference: `true` at a difference, `false`
at the end of `xs`, and `none` where `ys` ends before. -/
def compareThrough : List α → List α → Option Bool
  | [], _ => some false
  | _ :: _, [] => none
  | x :: xs, y :: ys => if x = y then compareThrough xs ys else some true

theorem compareThrough_eq_false (xs ys : List α) :
    compareThrough xs ys = some false ↔ xs <+: ys := by
  induction xs generalizing ys with
  | nil => simp [compareThrough]
  | cons x xs ih =>
    cases ys with
    | nil => simp [compareThrough]
    | cons y ys =>
      rw [compareThrough, List.cons_prefix_cons]
      by_cases h : x = y
      · rw [if_pos h, ih]
        exact ⟨fun hp => ⟨h, hp⟩, fun hp => hp.2⟩
      · rw [if_neg h]
        exact ⟨fun hf => by simp at hf, fun hp => absurd hp.1 h⟩

theorem compareThrough_eq_none (xs ys : List α) :
    compareThrough xs ys = none ↔ ys <+: xs ∧ ys ≠ xs := by
  induction xs generalizing ys with
  | nil => simp [compareThrough]
  | cons x xs ih =>
    cases ys with
    | nil => simp [compareThrough]
    | cons y ys =>
      rw [compareThrough, List.cons_prefix_cons]
      by_cases h : x = y
      · rw [if_pos h, ih]
        simp [h]
      · rw [if_neg h]
        exact ⟨fun hf => by simp at hf, fun hp => absurd hp.1.1.symm h⟩

/-- The three outcomes are exclusive, so a difference is what neither is a prefix of. -/
theorem compareThrough_eq_true (xs ys : List α) :
    compareThrough xs ys = some true ↔ ¬ xs <+: ys ∧ ¬ ys <+: xs := by
  rw [← compareThrough_eq_false]
  have hnone := compareThrough_eq_none xs ys
  have hfalse := compareThrough_eq_false xs ys
  rcases hc : compareThrough xs ys with _ | r
  · have hp := (hnone.mp hc).1
    simp [hp]
  · cases r with
    | false => simp
    | true =>
      have hne : ys ≠ xs := by
        intro h
        rw [hfalse.mpr (h ▸ List.prefix_refl _)] at hc
        simp at hc
      have hp : ¬ ys <+: xs := fun hp => by
        rw [hnone.mpr ⟨hp, hne⟩] at hc
        simp at hc
      simp [hp]

end Through

/-! ## The comparison with its reads -/

/-- The bytes behind a pointer to the string, as far as it may be used. -/
def CString.bytes (s : CString) : List UInt8 := s.chars ++ [0]

/-- `*p++`. -/
def derefNext : List UInt8 → Option (UInt8 × List UInt8)
  | [] => none
  | c :: p => some (c, p)

/-- `TOLOWER(*p2++)`: each occurrence of the operand reads a byte. -/
def toLowerRead (p2 : List UInt8) : Option (UInt8 × List UInt8) := do
  let (c, p2) ← derefNext p2
  if 0x40 < c then
    -- the second comparison is with the byte behind, and the value is a third one
    let (c, p2) ← derefNext p2
    if c < 0x5b then
      let (c, p2) ← derefNext p2
      some (c ||| 0x60, p2)
    else derefNext p2
  else derefNext p2

/-- The loop of `hashKeyCompare`, up to the value of `result == 0`. -/
def compareReads : List UInt8 → List UInt8 → Option Bool
  | [], _ => none
  | c :: p1, p2 => do
      let (d, p2) ← toLowerRead p2
      if toLower c = d then
        -- `result` is 1: the loop goes on, or leaves at the terminator
        if c = 0 then some false else compareReads p1 p2
      -- `result` is 0, the value that the function returns `true` for
      else some true

/-- `hashKeyCompare` for a caller that owns the two strings and nothing behind them. -/
def hashKeyReads (a b : CString) : Option Bool :=
  if a == b then some true else compareReads a.bytes b.bytes

/-- What the map needs of the comparison and of the hash, for two names. -/
structure ComparesKeys (a b : CString) : Prop where
  /-- No byte behind either terminator is read. -/
  reads : (hashKeyReads a b).isSome
  answer : hashKeyCompare a b = true ↔ equalsIgnoringCase a.chars b.chars = true
  hash : equalsIgnoringCase a.chars b.chars = true → hashCalc a = hashCalc b

/-! ## The characters that are compared -/

/-- The characters `TOLOWER(*p2++)` yields one after the other: the last one of every
group, with the bits of lower case set where the middle one of three is below `0x5b`.  Bytes
that do not fill a group yield nothing. -/
def picked : List UInt8 → List UInt8
  | c :: d :: e :: rest =>
      if 0x40 < c then (if d < 0x5b then e ||| 0x60 else e) :: picked rest
      else d :: picked (e :: rest)
  | [c, d] => if 0x40 < c then [] else [d]
  | _ => []

theorem picked_of_toLowerRead_none {p : List UInt8} (h : toLowerRead p = none) :
    picked p = [] := by
  match p with
  | [] => rfl
  | [_] => rfl
  | [c, d] =>
    by_cases hc : 0x40 < c
    · rw [picked, if_pos hc]
    · simp [toLowerRead, derefNext, hc] at h
  | c :: d :: e :: rest =>
    by_cases hc : 0x40 < c <;> by_cases hd : d < 0x5b <;>
      simp [toLowerRead, derefNext, hc, hd] at h

theorem picked_of_toLowerRead_some {p : List UInt8} {d : UInt8} {rest : List UInt8}
    (h : toLowerRead p = some (d, rest)) : picked p = d :: picked rest := by
  match p with
  | [] => simp [toLowerRead, derefNext] at h
  | [c] =>
    by_cases hc : 0x40 < c <;> simp [toLowerRead, derefNext, hc] at h
  | [c, d'] =>
    by_cases hc : 0x40 < c
    · by_cases hd : d' < 0x5b <;> simp [toLowerRead, derefNext, hc, hd] at h
    · simp only [toLowerRead, derefNext, hc, Option.bind_eq_bind, Option.bind_some, if_false,
        Option.some.injEq, Prod.mk.injEq] at h
      obtain ⟨rfl, rfl⟩ := h
      rw [picked, if_neg hc]
      rfl
  | c :: d' :: e :: tail =>
    by_cases hc : 0x40 < c
    · by_cases hd : d' < 0x5b <;>
      · simp only [toLowerRead, derefNext, hc, hd, Option.bind_eq_bind, Option.bind_some,
          if_true, if_false, Option.some.injEq, Prod.mk.injEq] at h
        obtain ⟨rfl, rfl⟩ := h
        rw [picked, if_pos hc]
        simp [hd]
    · simp only [toLowerRead, derefNext, hc, Option.bind_eq_bind, Option.bind_some, if_false,
        Option.some.injEq, Prod.mk.injEq] at h
      obtain ⟨rfl, rfl⟩ := h
      rw [picked, if_neg hc]

/-- The bits of lower case make any byte a character. -/
theorem or_lower_ne_zero (c : UInt8) : c ||| 0x60 ≠ 0 := by
  intro h
  have hn := congrArg UInt8.toNat h
  rw [UInt8.toNat_or] at hn
  have hle : (0x60 : UInt8).toNat ≤ c.toNat ||| (0x60 : UInt8).toNat := Nat.right_le_or
  rw [hn] at hle
  exact absurd hle (by decide)

/-- **The loop compares the first string with the picked characters.** -/
theorem compareReads_eq (chars p2 : List UInt8) (h0 : 0 ∉ chars) :
    compareReads (chars ++ [0]) p2 =
      compareThrough (chars.map toLower ++ [0]) (picked p2) := by
  -- Induction on what is left of the first string.
  induction chars generalizing p2 with
  | nil =>
    rw [List.nil_append, compareReads]
    rcases hr : toLowerRead p2 with _ | ⟨d, rest⟩
    · rw [picked_of_toLowerRead_none hr]
      rfl
    · rw [picked_of_toLowerRead_some hr]
      simp only [Option.bind_eq_bind, Option.bind_some, if_true]
      rfl
  | cons c chars ih =>
    have hc : c ≠ 0 := fun h => h0 (by simp [h])
    have hrest : 0 ∉ chars := fun h => h0 (List.mem_cons_of_mem _ h)
    rw [List.cons_append, compareReads]
    rcases hr : toLowerRead p2 with _ | ⟨d, rest⟩
    · rw [picked_of_toLowerRead_none hr]
      rfl
    · rw [picked_of_toLowerRead_some hr]
      simp only [Option.bind_eq_bind, Option.bind_some, if_neg hc, ih rest hrest]
      rfl

/-! ## The reads are those of `hashKeyCompare` -/

theorem derefNext_drop {s : CString} {j : Nat} {c : UInt8} {rest : List UInt8}
    (h : derefNext (s.bytes.drop j) = some (c, rest)) :
    c = s.byteAt j ∧ rest = s.bytes.drop (j + 1) := by
  have hlen : j < s.bytes.length := by
    by_contra hge
    rw [List.drop_eq_nil_of_le (Nat.le_of_not_lt hge)] at h
    simp [derefNext] at h
  rw [List.drop_eq_getElem_cons hlen] at h
  simp only [derefNext, Option.some.injEq, Prod.mk.injEq] at h
  refine ⟨?_, h.2.symm⟩
  rw [← h.1, CString.byteAt]
  simp only [CString.bytes, List.length_append, List.length_singleton] at hlen
  by_cases hj : j < s.chars.length
  · rw [dif_pos hj]
    exact List.getElem_append_left hj
  · have heq : j = s.chars.length := by omega
    subst heq
    simp [CString.bytes]

theorem toLowerRead_drop {s : CString} {j : Nat} {d : UInt8} {rest : List UInt8}
    (h : toLowerRead (s.bytes.drop j) = some (d, rest)) :
    (toLowerNext s.byteAt j).1 = d ∧ rest = s.bytes.drop (toLowerNext s.byteAt j).2 := by
  rw [toLowerRead] at h
  obtain ⟨⟨c, p⟩, hc, h⟩ := Option.bind_eq_some_iff.mp h
  obtain ⟨rfl, rfl⟩ := derefNext_drop hc
  rw [toLowerNext]
  by_cases h1 : 0x40 < s.byteAt j
  · rw [if_pos h1]
    simp only [if_pos h1] at h
    obtain ⟨⟨c, p⟩, hc, h⟩ := Option.bind_eq_some_iff.mp h
    obtain ⟨rfl, rfl⟩ := derefNext_drop hc
    by_cases h2 : s.byteAt (j + 1) < 0x5b
    · rw [if_pos h2]
      simp only [if_pos h2] at h
      obtain ⟨⟨c, p⟩, hc, h⟩ := Option.bind_eq_some_iff.mp h
      obtain ⟨rfl, rfl⟩ := derefNext_drop hc
      simp only [Option.some.injEq, Prod.mk.injEq] at h
      exact ⟨h.1, h.2.symm⟩
    · rw [if_neg h2]
      simp only [if_neg h2] at h
      obtain ⟨hd, hp⟩ := derefNext_drop h
      exact ⟨hd.symm, hp⟩
  · rw [if_neg h1]
    simp only [if_neg h1] at h
    obtain ⟨hd, hp⟩ := derefNext_drop h
    exact ⟨hd.symm, hp⟩

theorem compareLoop_of_reads {b : CString} {chars : List UInt8} (h0 : 0 ∉ chars) {j : Nat}
    {r : Bool} (h : compareReads (chars ++ [0]) (b.bytes.drop j) = some r) :
    compareLoop b.byteAt chars j = r := by
  induction chars generalizing j with
  | nil =>
    rw [List.nil_append, compareReads] at h
    obtain ⟨⟨d, rest⟩, hr, h⟩ := Option.bind_eq_some_iff.mp h
    rw [compareLoop, (toLowerRead_drop hr).1]
    -- The terminator is its own lower case.
    by_cases hd : (0 : UInt8) = d
    · simp only [if_pos (show toLower 0 = d from hd), if_true, Option.some.injEq] at h
      simp [hd, ← h]
    · simp only [if_neg (show ¬ toLower 0 = d from hd), Option.some.injEq] at h
      simp [hd, ← h]
  | cons c chars ih =>
    have hc : c ≠ 0 := fun h => h0 (by simp [h])
    rw [List.cons_append, compareReads] at h
    obtain ⟨⟨d, rest⟩, hr, h⟩ := Option.bind_eq_some_iff.mp h
    obtain ⟨hd, hrest⟩ := toLowerRead_drop hr
    rw [compareLoop, hd]
    by_cases heq : toLower c = d
    · simp only [if_pos heq, if_neg hc] at h
      rw [if_pos heq]
      exact ih (fun hm => h0 (List.mem_cons_of_mem _ hm)) (hrest ▸ h)
    · simp only [if_neg heq, Option.some.injEq] at h
      rw [if_neg heq, h]

/-- **Within the two strings the comparison is `hashKeyCompare`**, whatever lies behind
them. -/
theorem hashKeyCompare_of_reads {a b : CString} (h0 : 0 ∉ a.chars) {r : Bool}
    (h : hashKeyReads a b = some r) : hashKeyCompare a b = r := by
  rw [hashKeyReads] at h
  rw [hashKeyCompare]
  by_cases hab : (a == b) = true
  · rw [if_pos hab, Option.some.injEq] at h
    rw [if_pos hab, h]
  · rw [if_neg hab] at h
    rw [if_neg hab]
    exact compareLoop_of_reads h0 (j := 0) (by rw [List.drop_zero]; exact h)

/-! ## When the answer is right -/

/-- Names equal ignoring case have one hash. -/
theorem hashCalc_congr {a b : CString} (h : a.chars.map toLower = b.chars.map toLower) :
    hashCalc a = hashCalc b := by
  have hfold : ∀ (chars : List UInt8) (seed : BitVec 32), chars.foldl hashStep seed =
      (chars.map toLower).foldl (fun h c => h * 31#32 + BitVec.ofNat 32 c.toNat) seed := by
    intro chars seed
    rw [List.foldl_map]
    rfl
  have hlen : a.chars.length = b.chars.length := by
    simpa only [List.length_map] using congrArg List.length h
  rw [hashCalc, hashCalc, hfold, hfold, h, hlen]

/-- A group has two bytes at least. -/
theorem two_mul_length_picked (p : List UInt8) : 2 * (picked p).length ≤ p.length := by
  fun_induction picked p with
  | case1 c d e rest _ ih => simp only [List.length_cons]; omega
  | case2 c d e rest _ ih => simp only [List.length_cons] at ih ⊢; omega
  | case3 c d _ => simp
  | case4 c d _ => simp
  | case5 p _ _ => simp

/-- A zero at the end only is picked at the end or not at all. -/
theorem zero_picked_last {p : List UInt8} (hp : ∀ l r, p = l ++ 0 :: r → r = [])
    {l r : List UInt8} (h : picked p = l ++ 0 :: r) : r = [] := by
  fun_induction picked p generalizing l with
  | case1 c d e rest hc ih =>
    have hrest : ∀ l r, rest = l ++ 0 :: r → r = [] :=
      fun l r hl => hp (c :: d :: e :: l) r (by rw [hl]; rfl)
    cases l with
    | cons x l => exact ih hrest (List.cons.inj h).2
    | nil =>
      -- The zero is the last byte of the group, and nothing follows it.
      obtain ⟨he, hr⟩ := List.cons.inj h
      have hzero : e = 0 := by
        by_cases hd : d < 0x5b
        · rw [if_pos hd] at he
          exact absurd he (or_lower_ne_zero e)
        · rwa [if_neg hd] at he
      have hnil : rest = [] := hp [c, d] rest (by rw [hzero]; rfl)
      rw [← hr, hnil]
      rfl
  | case2 c d e rest hc ih =>
    cases l with
    | cons x l => exact ih (fun l r hl => hp (c :: d :: l) r (by rw [hl]; rfl)) (List.cons.inj h).2
    | nil =>
      have hd : d = 0 := (List.cons.inj h).1
      exact absurd (hp [c] (e :: rest) (by rw [hd]; rfl)) (List.cons_ne_nil _ _)
  | case3 c d hc => simp at h
  | case4 c d hc =>
    cases l with
    | nil => exact (List.cons.inj h).2.symm
    | cons x l => simp at h
  | case5 p _ _ => simp at h

/-- Where the picked characters spell a text with its terminator, nothing is picked behind
the terminator. -/
theorem picked_eq_of_spells {s text : List UInt8} (h0 : 0 ∉ s)
    (h : text ++ [0] <+: picked (s ++ [0])) : picked (s ++ [0]) = text ++ [0] := by
  obtain ⟨rest, hrest⟩ := h
  have hlast : ∀ l r, s ++ [0] = l ++ 0 :: r → r = [] := by
    intro l r hl
    rcases List.append_eq_append_iff.mp hl with ⟨m, -, hm⟩ | ⟨m, hs, hm⟩
    · cases m with
      | nil => exact (List.cons.inj hm).2.symm
      | cons x m => simp at hm
    · cases m with
      | nil => exact (List.cons.inj hm).2
      | cons x m =>
        rw [hs, (List.cons.inj hm).1] at h0
        simp at h0
  have hnil : rest = [] := zero_picked_last hlast (l := text) (by rw [← hrest]; simp)
  rw [← hrest, hnil, List.append_nil]

/-- The comparison of two names goes through the first one along the picked characters. -/
theorem hashKeyReads_eq {a b : CString} (hne : a.addr ≠ b.addr) (ha : 0 ∉ a.chars) :
    hashKeyReads a b = compareThrough (a.chars.map toLower ++ [0]) (picked b.bytes) := by
  have hab : (a == b) = false := by rw [CString.beq_eq]; exact beq_eq_false_iff_ne.mpr hne
  rw [hashKeyReads, hab, if_neg Bool.false_ne_true]
  exact compareReads_eq a.chars b.bytes ha

/-- **When the comparison of two names is what the map takes it for.**  Either the picked
characters spell the first name with its terminator, and the names are different, or the
names are equal and one of the picked characters is not the one at its place. -/
theorem compares_keys_iff {a b : CString} (hne : a.addr ≠ b.addr) (ha : 0 ∉ a.chars)
    (hb : 0 ∉ b.chars) :
    ComparesKeys a b ↔
      picked b.bytes = a.chars.map toLower ++ [0] ∨
        equalsIgnoringCase a.chars b.chars = true ∧
          ¬ picked b.bytes <+: a.chars.map toLower ++ [0] := by
  have hreads := hashKeyReads_eq hne ha
  have hequal : equalsIgnoringCase a.chars b.chars = true ↔
      a.chars.map toLower = b.chars.map toLower := beq_iff_eq
  -- Fewer characters are picked than the name has, so they do not spell an equal one.
  have hshort : equalsIgnoringCase a.chars b.chars = true →
      ¬ a.chars.map toLower ++ [0] <+: picked b.bytes := by
    intro heq hp
    have hlen := congrArg List.length (hequal.mp heq)
    have htwo := two_mul_length_picked b.bytes
    have hle := hp.length_le
    simp only [CString.bytes, List.length_append, List.length_map, List.length_singleton]
      at hlen htwo hle
    omega
  constructor
  · intro hk
    obtain ⟨r, hr⟩ := Option.isSome_iff_exists.mp hk.reads
    have hanswer := hk.answer
    rw [hashKeyCompare_of_reads ha hr] at hanswer
    rw [hreads] at hr
    cases r with
    | false => exact Or.inl (picked_eq_of_spells hb ((compareThrough_eq_false _ _).mp hr))
    | true => exact Or.inr ⟨hanswer.mp rfl, ((compareThrough_eq_true _ _).mp hr).2⟩
  · intro h
    have hhash : equalsIgnoringCase a.chars b.chars = true → hashCalc a = hashCalc b :=
      fun heq => hashCalc_congr (hequal.mp heq)
    rcases h with hspell | ⟨heq, hdiff⟩
    · have hr : hashKeyReads a b = some false := by
        rw [hreads, hspell]
        exact (compareThrough_eq_false _ _).mpr (List.prefix_refl _)
      refine ⟨by rw [hr]; rfl, ?_, hhash⟩
      rw [hashKeyCompare_of_reads ha hr]
      exact ⟨fun hf => absurd hf Bool.false_ne_true,
        fun heq => absurd (hspell ▸ List.prefix_refl _) (hshort heq)⟩
    · have hr : hashKeyReads a b = some true := by
        rw [hreads]
        exact (compareThrough_eq_true _ _).mpr ⟨hshort heq, hdiff⟩
      refine ⟨by rw [hr]; rfl, ?_, hhash⟩
      rw [hashKeyCompare_of_reads ha hr]
      exact ⟨fun _ => heq, fun _ => rfl⟩

/-- `Date` and `date`: of the second name the `t` alone is compared, with a `d`. -/
theorem compares_keys_date :
    ComparesKeys ⟨1, [68, 97, 116, 101], fun _ => 0⟩ ⟨2, [100, 97, 116, 101], fun _ => 0⟩ :=
  (compares_keys_iff (by decide) (by decide) (by decide)).mpr (Or.inr ⟨by decide, by decide⟩)

/-- `a~` and `b_` share a hash, and the comparison takes them for one name: it meets `a`
and the terminator behind `_`. -/
theorem not_compares_keys :
    ¬ ∀ a b : CString, a.addr ≠ b.addr → 0 ∉ a.chars → 0 ∉ b.chars → ComparesKeys a b := by
  intro h
  have hk := h ⟨1, [97, 126], fun _ => 0⟩ ⟨2, [98, 95], fun _ => 0⟩ (by decide) (by decide)
    (by decide)
  have heq := hk.answer.mp (by decide)
  exact absurd heq (by decide)

/-- With one hash, so that `equalKeys` asks for the comparison. -/
example : hashCalc ⟨1, [97, 126], fun _ => 0⟩ = hashCalc ⟨2, [98, 95], fun _ => 0⟩ := by decide

end Chttpc
