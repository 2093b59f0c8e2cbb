import Chttpc.HeaderAccess
import Chttpc.Runs

/-!
# Runs of `header_callback`

A run hands any lines to the callback, one after another, starting from a handle
whose headers are clear (`IsReset`): a fresh one, or one that `reset` has just
been called on.

The properties of the store speak of what has arrived since the headers were
last cleared, which the handle does not record.  `Observed` keeps this ledger
beside the handle: the number of blocks there were at the last clearing, and the
header lines accepted since, each with its block and with the entry of the map
that `entryGet` resolved it to.  The ledger is written from the state before
each call and nothing in the handle depends on it (`Observed.run_ctrl`).
-/

namespace Chttpc

namespace CurlData

/-- What `Java_net_sf_chttpc_Curl_reset` does to the handle while it holds the
lock. -/
def reset (ctrl : CurlData) : CurlData :=
  let ctrl := ({ ctrl with
    maxHeaderLength := 0
    uploadedCount := 0
    state := .zero
    readOverflow := 0 }).releaseHeaders
  { ctrl with headers := ctrl.headers.hashmapClear }

/-- No header has arrived since the headers were cleared. -/
structure IsReset (ctrl : CurlData) : Prop where
  wellFormed : ctrl.headers.WellFormed
  entries : ctrl.headers.entries = []
  headerPairCount : ctrl.headerPairCount = 0
  seenHeaderEnd : ctrl.state.seenHeaderEnd = false
  headerBufSize : 0 < ctrl.headerBufSize
  /-- The array may hold pointers to older blocks, and to no others. -/
  older : ∀ i block, ctrl.headerPairs i = some (.value block) → block < ctrl.blocks.length

theorem isReset_nativeCreate : nativeCreate.IsReset where
  wellFormed := Hashmap.wellFormed_hashmapCreate _ _ _ _
  entries := rfl
  headerPairCount := rfl
  seenHeaderEnd := rfl
  headerBufSize := by decide
  older := fun _ _ h => nomatch h

theorem isReset_reset {ctrl : CurlData} (hw : ctrl.headers.WellFormed)
    (hsize : 0 < ctrl.headerBufSize)
    (holder : ∀ i block, ctrl.headerPairs i = some (.value block) → block < ctrl.blocks.length) :
    ctrl.reset.IsReset where
  wellFormed := hw.hashmapClear
  entries := Hashmap.entries_hashmapClear _
  headerPairCount := rfl
  seenHeaderEnd := rfl
  headerBufSize := hsize
  older := holder

/-- Hands the lines to `header_callback`, one after another. -/
def receive (ctrl : CurlData) (lines : List HeaderLine) : CurlData :=
  Runs.run (fun ctrl line => (ctrl.headerCallback line).1) ctrl lines

/-- Whether `header_callback` clears the headers when it is handed the line. -/
def clears (ctrl : CurlData) (line : HeaderLine) : Bool :=
  line.isStatusLine && ctrl.state.seenHeaderEnd

/-- The key of the entry that takes the value of a header line: of the one
`entryGet` finds, or else of the one made for the line. -/
def owner (ctrl : CurlData) (line : HeaderLine) : CString :=
  match (ctrl.headers.entryGet (line.name ctrl.blocks.length)).bind ctrl.headers.entryAt with
  | some entry => entry.key
  | none => line.name ctrl.blocks.length

end CurlData

/-- An accepted header line: its block, and the address of the key of the entry
it was resolved to. -/
structure Accepted where
  line : HeaderLine
  block : Nat
  owner : Nat

/-- A handle with the ledger of what it has been handed since the headers were
last cleared. -/
structure Observed where
  ctrl : CurlData
  /-- The number of blocks there were at the last clearing. -/
  since : Nat
  accepted : List Accepted

namespace Observed

def start (ctrl : CurlData) : Observed := ⟨ctrl, ctrl.blocks.length, []⟩

def step (o : Observed) (line : HeaderLine) : Observed :=
  let ctrl := (o.ctrl.headerCallback line).1
  if line.isSpecial then
    if o.ctrl.clears line then ⟨ctrl, o.ctrl.blocks.length, []⟩ else { o with ctrl }
  else
    let entry : Accepted := ⟨line, o.ctrl.blocks.length, (o.ctrl.owner line).addr⟩
    { o with ctrl, accepted := o.accepted ++ [entry] }

def run (o : Observed) (lines : List HeaderLine) : Observed := Runs.run step o lines

/-- The blocks of the accepted lines resolved to the entry with the key at
`addr`, in the order of their arrival. -/
def valuesOf (o : Observed) (addr : Nat) : List Nat :=
  (o.accepted.filter (·.owner == addr)).map (·.block)

@[simp] theorem step_ctrl (o : Observed) (line : HeaderLine) :
    (o.step line).ctrl = (o.ctrl.headerCallback line).1 := by
  unfold step
  split
  · split <;> rfl
  · rfl

/-- The ledger does not disturb the run. -/
@[simp] theorem run_ctrl (lines : List HeaderLine) :
    ∀ o : Observed, (o.run lines).ctrl = o.ctrl.receive lines := by
  induction lines with
  | nil => exact fun _ => rfl
  | cons line lines ih =>
    intro o
    exact (ih (o.step line)).trans (by rw [step_ctrl]; rfl)

/-! ## One step, by the kind of the line -/

variable {o : Observed} {line : HeaderLine}

theorem step_terminator (h : line.isSpecial = true) (hs : line.isStatusLine = false) :
    o.step line =
      { o with ctrl := { o.ctrl with state := { o.ctrl.state with seenHeaderEnd := true } } } := by
  simp [step, h, CurlData.clears, hs, CurlData.headerCallback_terminator h hs]

theorem step_clears (hs : line.isStatusLine = true) (hend : o.ctrl.state.seenHeaderEnd = true) :
    o.step line = ⟨(o.ctrl.headerCallback line).1, o.ctrl.blocks.length, []⟩ := by
  simp [step, CurlData.isSpecial_of_isStatusLine hs, CurlData.clears, hs, hend]

theorem step_statusLine (hs : line.isStatusLine = true)
    (hend : o.ctrl.state.seenHeaderEnd = false) :
    o.step line = { o with ctrl := (o.ctrl.headerCallback line).1 } := by
  simp [step, CurlData.isSpecial_of_isStatusLine hs, CurlData.clears, hend]

theorem step_header (h : line.isSpecial = false) :
    o.step line =
      { o with
        ctrl := (o.ctrl.headerCallback line).1
        accepted := o.accepted ++
          [⟨line, o.ctrl.blocks.length, (o.ctrl.owner line).addr⟩] } := by
  simp [step, h]

end Observed
end Chttpc
