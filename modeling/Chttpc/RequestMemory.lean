import Chttpc.LinkedCells
import Chttpc.Machine
import Chttpc.RequestEdits

/-!
# The request headers in memory

`ctrl->outHeaders` leads through the nodes of a `curl_slist`, each of which points to a block
with its text.  `setHeader` edits this list in place: it goes from node to node, frees the
texts and nodes it removes, and hands its own buffer over to the node that takes it, while
`addHeader` has its buffer copied by `curl_slist_append`.  Here the calls are these loops over
pointers.  To follow a pointer that leads nowhere, or to free a block twice, is a fault; how
much of a block a call writes is not looked at here.

The pointer to a list may be overwritten while the list is still allocated: `setHeader`
without a value does so if the first header begins with the key, and so does a
`curl_slist_append` that has no memory.  Such a list is lost; `nodes` keeps its pointer in a
ledger, which is never read.

`Holds` connects the memory with the list of texts that the other modules are about, and says
that nothing is allocated but the list and what has been lost.
-/

namespace Chttpc
open Linked

/-- The request headers of a handle, and the memory they are in. -/
structure RequestMemory where
  /-- The nodes of the list; the content of a node is its `data`.  The first root is
  `ctrl->outHeaders`, the others are the ledger. -/
  nodes : Store Nat
  /-- The blocks of texts. -/
  texts : Linked.Memory (List UInt8)
  outHeaderCount : Nat
  env : JNIEnv

namespace RequestMemory

/-- The headers of a fresh handle. -/
def fresh : RequestMemory := ⟨⟨Linked.Memory.empty, [none]⟩, Linked.Memory.empty, 0, ⟨none⟩⟩

/-- More turns than a loop over the list takes. -/
def fuel (mem : RequestMemory) : Nat := mem.nodes.memory.top + 1

/-- `ctrl->outHeaders`. -/
def outHeaders (mem : RequestMemory) : Option Nat := mem.nodes.roots.head?.join

/-- `ctrl->outHeaders = NULL`, with the list still allocated. -/
def loseList (mem : RequestMemory) : RequestMemory :=
  { mem with nodes := { mem.nodes with roots := none :: mem.nodes.roots } }

def oomThrow (mem : RequestMemory) : RequestMemory :=
  { mem with env := mem.env.throw (.byCallback .oom none 0) }

/-- `malloc` of a block for a text, which is then written to it. -/
def mallocText (text : List UInt8) (mem : RequestMemory) : RequestMemory :=
  { mem with texts := (mem.texts.malloc text).1 }

/-- `free` of the text at `data`. -/
def freeText (data : Nat) (mem : RequestMemory) : Option RequestMemory :=
  (mem.texts.free data).map fun texts => { mem with texts }

/-- `ctrl->outHeaders = curl_slist_append(ctrl->outHeaders, text)`: a new node behind the
last one, with a copy of the C string.  Without memory the result is `NULL`. -/
def slistAppend (alloc : HeaderAlloc) (text : List UInt8) (mem : RequestMemory) :
    Option RequestMemory :=
  if alloc.entry then
    (mem.nodes.seek (fun _ => false) mem.fuel (.root 0)).bind fun last =>
      (mem.nodes.link last.1 mem.texts.top).map fun nodes =>
        { mem.mallocText (cString text) with nodes }
  else some mem.loseList

/-! ## `setHeader` -/

/-- What the loop of `setHeader` carries. -/
structure Scan where
  mem : RequestMemory
  lastHdr : Option Nat
  /-- The node whose `data` is to be replaced. -/
  newHeader : Option Nat

/-- The loop of `setHeader`, at the node `nextHdr`. -/
def scanNodes (key : List UInt8) (hasValue : Bool) : Nat → Option Nat → Scan → Option Scan
  | _, none, scan => some scan
  | 0, some _, _ => none
  | fuel + 1, some nextHdr, scan =>
      (scan.mem.nodes.memory.read nextHdr).bind fun node =>
        (scan.mem.texts.read node.content).bind fun data =>
          if strncasecmpZero key data key.length then
            if hasValue then
              scanNodes key hasValue fuel node.next
                { scan with newHeader := some nextHdr, lastHdr := some nextHdr }
            else
              (scan.mem.freeText node.content).bind fun mem =>
                if mem.outHeaders ≠ some nextHdr then
                  scan.lastHdr.bind fun lastHdr =>
                    (mem.nodes.unlink (.next lastHdr) nextHdr).bind fun nodes =>
                      (nodes.readPlace (.next lastHdr)).bind fun nextHdr =>
                        scanNodes key hasValue fuel nextHdr { scan with
                          mem := { mem with
                            nodes, outHeaderCount := toUInt16 (mem.outHeaderCount + 65535) } }
                else some { scan with mem := mem.loseList, lastHdr := none }
          else scanNodes key hasValue fuel node.next { scan with lastHdr := some nextHdr }

/-- `*newHeader = localBuffer`, with the text that it holds by then: in the place of another
text, which is freed, or in a new node. -/
def insert (alloc : HeaderAlloc) (localBuffer : Nat) (text : List UInt8) (scan : Scan) :
    Option RequestMemory :=
  (scan.mem.texts.write localBuffer text).bind fun texts =>
    match scan.newHeader with
    | some p =>
        (scan.mem.nodes.memory.read p).bind fun node =>
          (texts.free node.content).bind fun texts =>
            (scan.mem.nodes.memory.setContent p localBuffer).map fun memory =>
              { scan.mem with nodes := { scan.mem.nodes with memory }, texts }
    | none =>
        if alloc.entry then
          (scan.mem.nodes.link (scan.lastHdr.elim (.root 0) .next) localBuffer).map fun nodes =>
            { scan.mem with
              nodes, texts, outHeaderCount := toUInt16 (scan.mem.outHeaderCount + 1) }
        else none

def setHeader (alloc : HeaderAlloc) (key : JString) (value : Option JString)
    (mem : RequestMemory) : Option RequestMemory :=
  if alloc.localBuffer = false then some mem.oomThrow
  else
    let sep := if value = some [] then 59 else 58
    let localBuffer := mem.texts.top
    let mem := mem.mallocText (narrow key ++ [sep])
    (scanNodes (narrow key) value.isSome mem.fuel mem.outHeaders ⟨mem, mem.outHeaders, none⟩).bind
      fun scan =>
        match value with
        | none =>
            (scan.mem.texts.write localBuffer (narrow key ++ [sep])).bind fun texts =>
              (({ scan.mem with texts }).slistAppend alloc (narrow key ++ [sep])).bind
                (freeText localBuffer)
        | some value => insert alloc localBuffer (narrow key ++ sep :: narrow value) scan

/-! ## The other calls -/

/-- `curl_slist_append` and the count, of `addHeader`. -/
def countedAppend (alloc : HeaderAlloc) (text : List UInt8) (mem : RequestMemory) :
    Option RequestMemory :=
  (mem.slistAppend alloc text).map fun mem =>
    { mem with outHeaderCount := toUInt16 (mem.outHeaderCount + 1) }

def addHeader (alloc : HeaderAlloc) (key value : JString) (mem : RequestMemory) :
    Option RequestMemory :=
  let text := narrow key ++ (if value.length = 0 then 59 else 58) :: narrow value
  if key.length + value.length + 1 < MAX_LOCAL_ALLOC then mem.countedAppend alloc text
  else if alloc.localBuffer = false then some mem.oomThrow
  else
    let localBuffer := mem.texts.top
    ((mem.mallocText text).countedAppend alloc text).bind (freeText localBuffer)

/-- The loop of `outHeader`. -/
def findText (key : List UInt8) (mem : RequestMemory) :
    Nat → Option Nat → Option (Option (List UInt8))
  | _, none => some none
  | 0, some _ => none
  | fuel + 1, some next =>
      (mem.nodes.memory.read next).bind fun node =>
        (mem.texts.read node.content).bind fun data =>
          if strncasecmpZero key data key.length then
            if data.length < key.length then none
            else if data.getD key.length 0 = 58 ∨ data.getD key.length 0 = 59 then some (some data)
            else findText key mem fuel node.next
          else findText key mem fuel node.next

def outHeader (platform : Platform) (alloc : HeaderAlloc) (stringOk : Bool) (key : JString)
    (mem : RequestMemory) : Option (RequestMemory × Option JString) :=
  if mem.outHeaderCount = 0 then some (mem, none)
  else if (MAX_LOCAL_ALLOC < key.length ∧ alloc.localBuffer = false) ∨ mem.outHeaders = none then
    none
  else
    (findText (narrow key) mem mem.fuel mem.outHeaders).map fun
      | none => (mem, none)
      | some data =>
          if stringOk then
            (mem, some (platform.newStringUTF (cString (data.drop (key.length + 1)))))
          else ({ mem with env := mem.env.throw .outOfMemoryError }, none)

/-- `curl_slist_free_all`. -/
def freeAll : Nat → Option Nat → RequestMemory → Option RequestMemory
  | _, none, mem => some mem
  | 0, some _, _ => none
  | fuel + 1, some item, mem =>
      (mem.nodes.memory.read item).bind fun node =>
        (mem.freeText node.content).bind fun mem =>
          (mem.nodes.memory.free item).bind fun memory =>
            freeAll fuel node.next { mem with nodes := { mem.nodes with memory } }

def clearHeaders (mem : RequestMemory) : Option RequestMemory :=
  (freeAll mem.fuel mem.outHeaders mem).map fun mem =>
    { mem with
      nodes := { mem.nodes with roots := mem.nodes.roots.set 0 none }, outHeaderCount := 0 }

/-- What `dispose` does with the request headers. -/
def disposeHeaders (mem : RequestMemory) : Option RequestMemory :=
  freeAll mem.fuel mem.outHeaders mem

/-- The texts of the list from a node on. -/
def textsFrom (mem : RequestMemory) : Nat → Option Nat → Option (List (List UInt8))
  | _, none => some []
  | 0, some _ => none
  | fuel + 1, some p =>
      (mem.nodes.memory.read p).bind fun node =>
        (mem.texts.read node.content).bind fun data =>
          (textsFrom mem fuel node.next).map (data :: ·)

/-- The texts of the request headers. -/
def headerTexts (mem : RequestMemory) : Option (List (List UInt8)) :=
  mem.textsFrom mem.fuel mem.outHeaders

end RequestMemory

/-! ## Calls with any outcome of their allocations -/

/-- A call on the request headers. -/
inductive HeaderRequest
  | setHeader (alloc : HeaderAlloc) (key : JString) (value : Option JString)
  | addHeader (alloc : HeaderAlloc) (key value : JString)
  | outHeader (platform : Platform) (alloc : HeaderAlloc) (stringOk : Bool) (key : JString)
  | clearHeaders

/-- The call, with what it returns. -/
def RequestMemory.request (mem : RequestMemory) :
    HeaderRequest → Option (RequestMemory × Option JString)
  | .setHeader alloc key value => (mem.setHeader alloc key value).map (·, none)
  | .addHeader alloc key value => (mem.addHeader alloc key value).map (·, none)
  | .outHeader platform alloc stringOk key => mem.outHeader platform alloc stringOk key
  | .clearHeaders => mem.clearHeaders.map (·, none)

/-- The call, on the list of texts. -/
def CurlData.request (ctrl : CurlData) : HeaderRequest → Option (CurlData × Option JString)
  | .setHeader alloc key value => (ctrl.setHeader alloc key value).map (·, none)
  | .addHeader alloc key value => some (ctrl.addHeader alloc key value, none)
  | .outHeader platform alloc stringOk key => ctrl.outHeader platform alloc stringOk key
  | .clearHeaders => some (ctrl.clearHeaders, none)

/-- How many nodes, and how many texts, the call leaves allocated behind no pointer.  The
text of a first header that begins with the key has been freed. -/
def HeaderRequest.loses (outHeaders : List (List UInt8)) : HeaderRequest → Nat × Nat
  | .setHeader alloc key none =>
      if alloc.localBuffer = false then (0, 0)
      else if outHeaders.head?.any (CurlData.beginsWith key) then
        (outHeaders.length, outHeaders.length - 1)
      else if alloc.entry then (0, 0)
      else
        let kept := outHeaders.filter fun data => !CurlData.beginsWith key data
        (kept.length, kept.length)
  | .addHeader alloc key value =>
      if (MAX_LOCAL_ALLOC ≤ key.length + value.length + 1 ∧ alloc.localBuffer = false) ∨
          alloc.entry then (0, 0)
      else (outHeaders.length, outHeaders.length)
  | _ => (0, 0)

/-- The list of texts, and what has been lost. -/
structure RequestLedger where
  ctrl : CurlData
  lostNodes : Nat
  lostTexts : Nat

def RequestLedger.request (ledger : RequestLedger) (request : HeaderRequest) :
    Option (RequestLedger × Option JString) :=
  (ledger.ctrl.request request).map fun (ctrl, answer) =>
    (⟨ctrl, ledger.lostNodes + (request.loses ledger.ctrl.outHeaders).1,
      ledger.lostTexts + (request.loses ledger.ctrl.outHeaders).2⟩, answer)

namespace RequestMemory

/-! ## What the memory holds -/

/-- The list leads through these nodes, the lost lists through those; the texts are those of
the nodes and some others. -/
structure Shows (mem : RequestMemory) (list : List (Nat × Nat)) (lost : List (List (Nat × Nat)))
    (others : List Nat) (outHeaders : List (List UInt8)) : Prop where
  lists : Lists mem.nodes.memory mem.nodes.roots (list :: lost)
  texts : Allocated mem.texts (list.map Prod.snd ++ others)
  reads : List.Forall₂ (fun n data => mem.texts.read n.2 = some data) list outHeaders

/-- The memory of a handle with these headers. -/
structure Holds (mem : RequestMemory) (ledger : RequestLedger) : Prop where
  memory : ∃ list lost others, Shows mem list lost others ledger.ctrl.outHeaders ∧
    (cellsIn lost).length = ledger.lostNodes ∧ others.length = ledger.lostTexts
  count : mem.outHeaderCount = ledger.ctrl.outHeaderCount
  env : mem.env = ledger.ctrl.env

section Shows
variable {mem mem' : RequestMemory} {list front rest : List (Nat × Nat)}
  {lost : List (List (Nat × Nat))} {others : List Nat} {n : Nat × Nat} {data text : List UInt8}
  {outHeaders kept headers : List (List UInt8)} {alloc : HeaderAlloc}

/-- The first of the lists. -/
theorem first_split {m : Linked.Memory (Cell Nat)} {roots : List (Option Nat)}
    (h : Lists m roots (list :: lost)) :
    ∃ others, roots = list.head?.map Prod.fst :: others ∧
      IsList m (list.head?.map Prod.fst) list none := by
  have hsplit : Lists m roots ([] ++ list :: lost) := h
  obtain ⟨above, root, below, hroots, hlength, hlist⟩ := hsplit.split
  obtain rfl := List.length_eq_zero_iff.mp hlength
  obtain rfl := hlist.start_eq
  exact ⟨below, hroots, hlist⟩

theorem Shows.outHeaders_eq (h : Shows mem list lost others outHeaders) :
    mem.outHeaders = list.head?.map Prod.fst := by
  obtain ⟨roots, hroots, -⟩ := first_split h.lists
  rw [RequestMemory.outHeaders, hroots]
  rfl

theorem Shows.length_lt_fuel (h : Shows mem list lost others outHeaders) :
    list.length < mem.fuel := by
  have hlists : Lists mem.nodes.memory mem.nodes.roots ([] ++ list :: lost) := h.lists
  exact Nat.lt_succ_of_le hlists.length_le

/-- What a step leaves alone. -/
def aside (mem : RequestMemory) : Nat × JNIEnv := (mem.outHeaderCount, mem.env)

theorem forall₂_split {R : Nat × Nat → List UInt8 → Prop}
    (h : List.Forall₂ R (front ++ rest) (kept ++ headers)) (hlength : front.length = kept.length) :
    List.Forall₂ R front kept ∧ List.Forall₂ R rest headers := by
  have hfront := List.forall₂_take_append _ _ _ h
  have hrest := List.forall₂_drop_append _ _ _ h
  rw [← hlength] at hfront hrest
  exact ⟨by simpa using hfront, by simpa using hrest⟩

/-- What the loops read at a node. -/
theorem Shows.read (h : Shows mem (front ++ n :: rest) lost others (kept ++ data :: headers))
    (hlength : front.length = kept.length) :
    mem.nodes.memory.read n.1 = some ⟨n.2, rest.head?.map Prod.fst⟩ ∧
      mem.texts.read n.2 = some data := by
  constructor
  · obtain ⟨_, -, hlist⟩ := first_split h.lists
    obtain ⟨middle, -, -, next, hread, hrest⟩ := isList_append.mp hlist
    rw [hread, hrest.start_eq]
  · exact (List.forall₂_cons.mp (forall₂_split h.reads hlength).2).1

/-- A new block. -/
theorem Shows.malloc (h : Shows mem list lost others outHeaders) (text : List UInt8) :
    Shows (mem.mallocText text) list lost (mem.texts.top :: others) outHeaders where
  lists := h.lists
  texts := (h.texts.malloc text).perm List.perm_middle.symm
  reads := by
    refine h.reads.imp fun n data hread => ?_
    rw [mallocText, Linked.Memory.read_malloc, if_neg, hread]
    exact Nat.ne_of_lt (h.texts.bounded _ (by simp [hread]))

theorem forall₂_set_texts {m : Linked.Memory (List UInt8)} {p : Nat} {v : Option (List UInt8)}
    (h : List.Forall₂ (fun (n : Nat × Nat) data => m.read n.2 = some data) list outHeaders)
    (hp : p ∉ list.map Prod.snd) :
    List.Forall₂ (fun (n : Nat × Nat) data => (m.set p v).read n.2 = some data) list outHeaders := by
  induction h with
  | nil => exact .nil
  | cons hread _ ih =>
    rw [List.map_cons, List.mem_cons, not_or] at hp
    exact .cons ((m.read_set_of_ne p v fun he => hp.1 he.symm).trans hread) (ih hp.2)

/-- A block that no node points to, freed. -/
theorem Shows.freeText {p : Nat} (h : Shows mem list lost (p :: others) outHeaders) :
    ∃ mem', freeText p mem = some mem' ∧ Shows mem' list lost others outHeaders ∧
      mem'.aside = mem.aside := by
  have hperm := h.texts.perm List.perm_middle
  obtain ⟨hfree, htexts⟩ := hperm.free
  have hp : p ∉ list.map Prod.snd := fun hmem =>
    (List.nodup_cons.mp hperm.nodup).1 (List.mem_append_left _ hmem)
  exact ⟨{ mem with texts := mem.texts.set p none }, by rw [RequestMemory.freeText, hfree]; rfl,
    ⟨h.lists, htexts, forall₂_set_texts h.reads hp⟩, rfl⟩

/-- A block that no node points to, written. -/
theorem Shows.writeText {p : Nat} (h : Shows mem list lost (p :: others) outHeaders)
    (text : List UInt8) :
    mem.texts.write p text = some (mem.texts.set p (some text)) ∧
      Shows { mem with texts := mem.texts.set p (some text) } list lost (p :: others) outHeaders := by
  have hperm := h.texts.perm List.perm_middle
  obtain ⟨hwrite, htexts⟩ := hperm.write List.mem_cons_self text
  have hp : p ∉ list.map Prod.snd := fun hmem =>
    (List.nodup_cons.mp hperm.nodup).1 (List.mem_append_left _ hmem)
  exact ⟨hwrite, h.lists, htexts.perm List.perm_middle.symm, forall₂_set_texts h.reads hp⟩

theorem Shows.perm {others' : List Nat} (h : Shows mem list lost others outHeaders)
    (hperm : others.Perm others') : Shows mem list lost others' outHeaders :=
  ⟨h.lists, h.texts.perm (hperm.append_left _), h.reads⟩

/-- The pointer to the list overwritten with `NULL`. -/
theorem Shows.loseList (h : Shows mem list lost others outHeaders) :
    Shows mem.loseList [] (list :: lost) (list.map Prod.snd ++ others) [] where
  lists := h.lists.replicate_nil 1
  texts := h.texts
  reads := .nil

theorem length_cellsIn_cons (list : List (Nat × Nat)) (lost : List (List (Nat × Nat))) :
    (cellsIn (list :: lost)).length = (cellsIn lost).length + list.length := by
  simp [Nat.add_comm]

/-- **`curl_slist_append`** puts a node with a copy behind the last node, or loses the list. -/
theorem Shows.slistAppend (h : Shows mem list lost others outHeaders) (alloc : HeaderAlloc)
    (text : List UInt8) :
    ∃ mem' list' lost' dropped, slistAppend alloc text mem = some mem' ∧
      Shows mem' list' lost' (dropped ++ others)
        (if alloc.entry then outHeaders ++ [cString text] else []) ∧
      (cellsIn lost').length = (cellsIn lost).length + (if alloc.entry then 0 else outHeaders.length) ∧
      dropped.length = (if alloc.entry then 0 else outHeaders.length) ∧ mem'.aside = mem.aside := by
  by_cases hentry : alloc.entry = true
  · have hlists : Lists mem.nodes.memory mem.nodes.roots ([] ++ (list ++ []) :: lost) := by
      simpa using h.lists
    have hseek : mem.nodes.seek (fun _ => false) (mem.nodes.memory.top + 1) (.root 0) =
      some (placeBehind 0 list, none) := hlists.seek (fun _ _ => rfl) nofun
    rw [List.append_nil] at hlists
    obtain ⟨nodes, hlink, hlists⟩ := hlists.link mem.texts.top
    rw [List.length_nil] at hlink
    refine ⟨{ mem.mallocText (cString text) with nodes },
      list ++ [(mem.nodes.memory.top, mem.texts.top)], lost, [], ?_, ?_, ?_, ?_, rfl⟩
    · rw [RequestMemory.slistAppend, if_pos hentry, fuel, hseek, Option.bind_some, hlink]
      rfl
    · rw [if_pos hentry]
      refine ⟨hlists, ?_, List.rel_append (h.malloc (cString text)).reads (.cons (if_pos rfl) .nil)⟩
      rw [List.map_append, List.append_assoc]
      exact (h.malloc (cString text)).texts
    · rw [if_pos hentry, Nat.add_zero]
    · rw [if_pos hentry, List.length_nil]
  · refine ⟨mem.loseList, [], list :: lost, list.map Prod.snd, ?_, ?_, ?_, ?_, rfl⟩
    · rw [RequestMemory.slistAppend, if_neg hentry]
    · rw [if_neg hentry]
      exact h.loseList
    · rw [if_neg hentry, length_cellsIn_cons, h.reads.length_eq]
    · rw [if_neg hentry, List.length_map, h.reads.length_eq]

/-! ## The loop of `setHeader` -/

/-- The node, and the index of its text. -/
def Marks (list : List (Nat × Nat)) (p i : Option Nat) : Prop :=
  p = i.bind (fun i => list[i]?.map Prod.fst) ∧ ∀ i', i = some i' → i' < list.length

/-- **With a value** the loop changes nothing, and ends at the last node. -/
theorem Shows.scan_value (key : List UInt8) (count : Nat) {fuel : Nat}
    {lastHdr newHeader i : Option Nat} (h : Shows mem (front ++ rest) lost others (kept ++ headers))
    (hlength : front.length = kept.length) (hfuel : rest.length ≤ fuel)
    (hlast : front ≠ [] ∨ rest = [] → lastHdr = front.getLast?.map Prod.fst)
    (hmarks : Marks (front ++ rest) newHeader i) :
    ∃ newHeader' i', scanNodes key true fuel (rest.head?.map Prod.fst) ⟨mem, lastHdr, newHeader⟩ =
        some ⟨mem, (front ++ rest).getLast?.map Prod.fst, newHeader'⟩ ∧
      CurlData.scanHeaders key true ⟨kept, i, count⟩ headers = ⟨kept ++ headers, i', count⟩ ∧
      Marks (front ++ rest) newHeader' i' := by
  induction rest generalizing front kept headers fuel lastHdr newHeader i with
  | nil =>
    have hnil : headers = [] := List.forall₂_nil_left_iff.mp (forall₂_split h.reads hlength).2
    refine ⟨newHeader, i, ?_, ?_, hmarks⟩
    · rw [hlast (Or.inr rfl), List.append_nil, List.head?_nil, Option.map_none, scanNodes]
    · rw [hnil, CurlData.scanHeaders, List.append_nil]
  | cons n rest ih =>
    cases headers with
    | nil => cases (forall₂_split h.reads hlength).2
    | cons data headers =>
      obtain ⟨hnode, htext⟩ := h.read hlength
      obtain ⟨fuel, rfl⟩ := Nat.exists_eq_succ_of_ne_zero (Nat.ne_of_gt (Nat.lt_of_lt_of_le
        (Nat.succ_pos _) hfuel))
      rw [List.append_cons front, List.append_cons kept] at h ⊢
      rw [List.head?_cons, Option.map_some, scanNodes, hnode, Option.bind_some, htext,
        Option.bind_some, CurlData.scanHeaders]
      by_cases hmatch : strncasecmpZero key data key.length = true
      · rw [if_pos hmatch, if_pos rfl, if_pos hmatch, if_pos rfl]
        refine ih h (by simp [hlength]) (Nat.le_of_succ_le_succ hfuel) (fun _ => by simp) ⟨?_, ?_⟩
        · rw [Option.bind_some, ← hlength]
          simp
        · intro i' hi'
          cases hi'
          rw [← hlength]
          simp
      · rw [if_neg hmatch, if_neg hmatch]
        exact ih h (by simp [hlength]) (Nat.le_of_succ_le_succ hfuel) (fun _ => by simp)
          (by simpa using hmarks)

/-- **Taking out a node** behind the head: its text and the node are freed. -/
theorem Shows.takeOut (h : Shows mem (front ++ n :: rest) lost others (kept ++ data :: headers))
    (hlength : front.length = kept.length) (hfront : front ≠ []) :
    ∃ lastHdr texts nodes, front.getLast?.map Prod.fst = some lastHdr ∧
      mem.texts.free n.2 = some texts ∧ mem.outHeaders ≠ some n.1 ∧
      mem.nodes.unlink (.next lastHdr) n.1 = some nodes ∧
      nodes.readPlace (.next lastHdr) = some (rest.head?.map Prod.fst) ∧
      Shows { mem with nodes, texts } (front ++ rest) lost others (kept ++ headers) := by
  obtain ⟨init, last, rfl⟩ := (List.eq_nil_or_concat front).resolve_left hfront
  rw [List.concat_eq_append] at h hlength ⊢
  have hlists : Lists mem.nodes.memory mem.nodes.roots
    ([] ++ (init ++ [last] ++ n :: rest) :: lost) := h.lists
  have hnodup := hlists.nodup_list
  obtain ⟨nodes, hunlink, hlists⟩ := hlists.unlink
  rw [List.length_nil, placeBehind_concat] at hunlink
  have hperm : ((init ++ [last] ++ n :: rest).map Prod.snd ++ others).Perm
      (n.2 :: ((init ++ [last] ++ rest).map Prod.snd ++ others)) :=
    (List.perm_middle.map Prod.snd).append_right others
  obtain ⟨hfree, htexts⟩ := (h.texts.perm hperm).free
  obtain ⟨hn, -⟩ := List.nodup_cons.mp (hperm.nodup_iff.mp h.texts.nodup)
  obtain ⟨hreadsFront, hreadsRest⟩ := forall₂_split h.reads hlength
  refine ⟨last.1, _, nodes, by simp, hfree, ?_, hunlink, ?_, hlists, htexts, ?_⟩
  · rw [h.outHeaders_eq]
    rw [pointers, List.map_append, List.nodup_append] at hnodup
    have hhead : ∃ first, (init ++ [last] ++ n :: rest).head? = some first ∧
        first.1 ∈ (init ++ [last]).map Prod.fst := by
      cases init with
      | nil => exact ⟨last, rfl, by simp⟩
      | cons first init => exact ⟨first, rfl, by simp⟩
    obtain ⟨first, hfirst, hmem⟩ := hhead
    rw [hfirst]
    intro he
    exact hnodup.2.2 first.1 hmem n.1 (by simp) (Option.some.inj he)
  · obtain ⟨roots, hroots, hlist⟩ := first_split hlists
    obtain ⟨middle, hinit, hrest⟩ := isList_append.mp hlist
    have hroots : nodes.roots = [] ++ _ :: roots := hroots
    have hplace := readPlace_behind hroots hinit
    rw [placeBehind_concat] at hplace
    rw [hplace, hrest.start_eq]
  · refine forall₂_set_texts (List.rel_append hreadsFront (List.forall₂_cons.mp hreadsRest).2) ?_
    exact fun hmem => hn (List.mem_append_left _ hmem)

/-- **Without a value** the loop takes out the nodes behind the head that match. -/
theorem Shows.scan_null (key : List UInt8) {fuel : Nat}
    (h : Shows mem (front ++ rest) lost others (kept ++ headers))
    (hlength : front.length = kept.length) (hfront : front ≠ []) (hfuel : rest.length ≤ fuel) :
    ∃ mem' list' lastHdr', scanNodes key false fuel (rest.head?.map Prod.fst)
        ⟨mem, front.getLast?.map Prod.fst, none⟩ = some ⟨mem', lastHdr', none⟩ ∧
      Shows mem' list' lost others
        (CurlData.scanHeaders key false ⟨kept, none, mem.outHeaderCount⟩ headers).kept ∧
      mem'.outHeaderCount =
        (CurlData.scanHeaders key false ⟨kept, none, mem.outHeaderCount⟩ headers).outHeaderCount ∧
      mem'.env = mem.env := by
  induction rest generalizing mem front kept headers fuel with
  | nil =>
    have hnil : headers = [] := List.forall₂_nil_left_iff.mp (forall₂_split h.reads hlength).2
    refine ⟨mem, front, front.getLast?.map Prod.fst, ?_, ?_, ?_, rfl⟩
    · rw [List.head?_nil, Option.map_none, scanNodes]
    · rw [hnil, CurlData.scanHeaders]
      simpa [hnil] using h
    · rw [hnil, CurlData.scanHeaders]
  | cons n rest ih =>
    cases headers with
    | nil => cases (forall₂_split h.reads hlength).2
    | cons data headers =>
      obtain ⟨hnode, htext⟩ := h.read hlength
      obtain ⟨fuel, rfl⟩ := Nat.exists_eq_succ_of_ne_zero (Nat.ne_of_gt (Nat.lt_of_lt_of_le
        (Nat.succ_pos _) hfuel))
      have hkept : kept ≠ [] := fun he => hfront (List.length_eq_zero_iff.mp (by rw [hlength, he]; rfl))
      rw [List.head?_cons, Option.map_some, scanNodes, hnode, Option.bind_some, htext,
        Option.bind_some, CurlData.scanHeaders]
      by_cases hmatch : strncasecmpZero key data key.length = true
      · obtain ⟨lastHdr, texts, nodes, hlast, hfree, hhead, hunlink, hnext, hshows⟩ :=
          h.takeOut hlength hfront
        have hshows' : Shows { mem with
              nodes, texts, outHeaderCount := toUInt16 (mem.outHeaderCount + 65535) }
            (front ++ rest) lost others (kept ++ headers) :=
          ⟨hshows.lists, hshows.texts, hshows.reads⟩
        have hstep := ih hshows' hlength hfront (Nat.le_of_succ_le_succ hfuel)
        have hhead : ({ mem with texts } : RequestMemory).outHeaders ≠ some n.1 := hhead
        rw [if_pos hmatch, if_neg (by decide), RequestMemory.freeText, hfree, Option.map_some,
          Option.bind_some]
        dsimp only
        rw [if_pos hhead, hlast, Option.bind_some, hunlink, Option.bind_some, hnext,
          Option.bind_some, if_pos hmatch, if_neg (by decide), if_neg hkept, ← hlast]
        exact hstep
      · rw [if_neg hmatch, if_neg hmatch]
        rw [List.append_cons front, List.append_cons kept] at h
        have hlast : some n.1 = (front ++ [n]).getLast?.map Prod.fst := by simp
        rw [hlast]
        exact ih h (by simp [hlength]) (by simp) (Nat.le_of_succ_le_succ hfuel)

/-- **The loop without a value**, from the head on. -/
theorem Shows.scanAll_null (h : Shows mem list lost others outHeaders) (key : List UInt8) :
    ∃ mem' list' lost' dropped lastHdr', scanNodes key false mem.fuel mem.outHeaders
        ⟨mem, mem.outHeaders, none⟩ = some ⟨mem', lastHdr', none⟩ ∧
      Shows mem' list' lost' (dropped ++ others)
        (CurlData.scanHeaders key false ⟨[], none, mem.outHeaderCount⟩ outHeaders).kept ∧
      (cellsIn lost').length = (cellsIn lost).length +
        (if outHeaders.head?.any (strncasecmpZero key · key.length) then outHeaders.length else 0) ∧
      dropped.length =
        (if outHeaders.head?.any (strncasecmpZero key · key.length) then outHeaders.length - 1
        else 0) ∧
      mem'.outHeaderCount =
        (CurlData.scanHeaders key false ⟨[], none, mem.outHeaderCount⟩ outHeaders).outHeaderCount ∧
      mem'.env = mem.env := by
  cases list with
  | nil =>
    have hnil : outHeaders = [] := List.forall₂_nil_left_iff.mp h.reads
    subst hnil
    refine ⟨mem, [], lost, [], mem.outHeaders, ?_, h, rfl, rfl, rfl, rfl⟩
    rw [h.outHeaders_eq, List.head?_nil, Option.map_none, scanNodes]
  | cons n rest =>
    cases outHeaders with
    | nil => cases h.reads
    | cons data headers =>
      have hfirst : Shows mem ([] ++ n :: rest) lost others ([] ++ data :: headers) := h
      obtain ⟨hnode, htext⟩ := hfirst.read rfl
      have hhead : mem.outHeaders = some n.1 := h.outHeaders_eq
      have hfuel : rest.length ≤ mem.nodes.memory.top :=
        Nat.le_of_lt (Nat.lt_of_succ_lt_succ h.length_lt_fuel)
      rw [hhead, fuel, scanNodes, hnode, Option.bind_some, htext, Option.bind_some,
        CurlData.scanHeaders, List.head?_cons, Option.any_some]
      by_cases hmatch : strncasecmpZero key data key.length = true
      · obtain ⟨hfree, htexts⟩ := h.texts.free
        have hsame : ({ mem with texts := mem.texts.set n.2 none } : RequestMemory).outHeaders =
          some n.1 := hhead
        rw [if_pos hmatch, if_neg (by decide), RequestMemory.freeText, hfree, Option.map_some,
          Option.bind_some]
        dsimp only
        rw [if_neg (not_not.mpr hsame), if_pos hmatch, if_pos hmatch, if_neg (by decide), if_pos rfl]
        refine ⟨_, [], (n :: rest) :: lost, rest.map Prod.snd, none, rfl,
          ⟨h.lists.replicate_nil 1, htexts, .nil⟩, ?_, ?_, rfl, rfl⟩
        · rw [length_cellsIn_cons, h.reads.length_eq]
        · rw [if_pos hmatch, ← h.reads.length_eq, List.length_map]
          rfl
      · rw [if_neg hmatch, if_neg hmatch, if_neg hmatch, if_neg hmatch]
        have hbehind : Shows mem ([n] ++ rest) lost others ([data] ++ headers) := h
        obtain ⟨mem', list', lastHdr', hscan, hshows, hcount, henv⟩ :=
          hbehind.scan_null key rfl (by simp) hfuel
        exact ⟨mem', list', lost, [], lastHdr', hscan, hshows, rfl, rfl, hcount, henv⟩

/-- **The text of a node replaced** by the buffer. -/
theorem Shows.replace {b : Nat} (alloc : HeaderAlloc) (text : List UInt8)
    (h : Shows mem (front ++ n :: rest) lost (b :: others) (kept ++ data :: headers))
    (hlength : front.length = kept.length) (lastHdr : Option Nat) :
    ∃ mem', insert alloc b text ⟨mem, lastHdr, some n.1⟩ = some mem' ∧
      Shows mem' (front ++ (n.1, b) :: rest) lost others (kept ++ text :: headers) ∧
      mem'.aside = mem.aside := by
  obtain ⟨hnode, -⟩ := h.read hlength
  obtain ⟨hwrite, hshows⟩ := h.writeText text
  have hperm : ((front ++ n :: rest).map Prod.snd ++ b :: others).Perm
      (n.2 :: ((front ++ (n.1, b) :: rest).map Prod.snd ++ others)) := by
    refine ((List.perm_middle.map Prod.snd).append_right _).trans (List.Perm.cons _ ?_)
    refine List.perm_middle.trans ?_
    rw [← List.cons_append]
    exact (List.perm_middle (a := (n.1, b)).map Prod.snd).symm.append_right others
  obtain ⟨hfree, htexts⟩ := (hshows.texts.perm hperm).free
  have hlists : Lists mem.nodes.memory mem.nodes.roots ([] ++ (front ++ n :: rest) :: lost) := h.lists
  obtain ⟨memory, hcontent, hlists⟩ := hlists.setContent b
  obtain ⟨hn, -⟩ := List.nodup_cons.mp ((h.texts.perm hperm).nodup)
  rw [List.map_append, List.map_cons, List.mem_append, not_or, List.mem_append, not_or,
    List.mem_cons, not_or] at hn
  obtain ⟨hfront, hrest⟩ := forall₂_split hshows.reads hlength
  refine ⟨{ mem with
    nodes := { mem.nodes with memory }, texts := (mem.texts.set b (some text)).set n.2 none },
    ?_, ⟨hlists, htexts, ?_⟩, rfl⟩
  · rw [insert, hwrite, Option.bind_some]
    dsimp only
    rw [hnode, Option.bind_some, hfree, Option.bind_some, hcontent]
    rfl
  · refine List.rel_append (forall₂_set_texts hfront hn.1.1) (.cons ?_ ?_)
    · rw [Linked.Memory.read_set_of_ne _ _ _ fun he => hn.1.2.1 he.symm, Linked.Memory.read_set_self]
    · exact forall₂_set_texts (List.forall₂_cons.mp hrest).2 hn.1.2.2

/-- **A new node** for the buffer. -/
theorem Shows.link {b : Nat} (text : List UInt8) (h : Shows mem list lost (b :: others) outHeaders)
    (hentry : alloc.entry = true) :
    ∃ mem', insert alloc b text ⟨mem, list.getLast?.map Prod.fst, none⟩ = some mem' ∧
      Shows mem' (list ++ [(mem.nodes.memory.top, b)]) lost others (outHeaders ++ [text]) ∧
      mem'.outHeaderCount = toUInt16 (mem.outHeaderCount + 1) ∧ mem'.env = mem.env := by
  obtain ⟨hwrite, hshows⟩ := h.writeText text
  have hlists : Lists mem.nodes.memory mem.nodes.roots ([] ++ list :: lost) := h.lists
  obtain ⟨nodes, hlink, hlists⟩ := hlists.link b
  have hplace : (list.getLast?.map Prod.fst).elim (Place.root 0) .next = placeBehind 0 list := by
    unfold placeBehind
    cases list.getLast? <;> rfl
  refine ⟨{ mem with
    nodes, texts := mem.texts.set b (some text),
    outHeaderCount := toUInt16 (mem.outHeaderCount + 1) }, ?_, ⟨hlists, ?_, ?_⟩, rfl, rfl⟩
  · rw [insert, hwrite, Option.bind_some]
    dsimp only
    rw [if_pos hentry, hplace]
    have hlink : mem.nodes.link (placeBehind 0 list) b = some nodes := hlink
    rw [hlink]
    rfl
  · rw [List.map_append, List.append_assoc]
    exact hshows.texts
  · exact List.rel_append hshows.reads (.cons (mem.texts.read_set_self b _) .nil)

end Shows

/-! ## Every call keeps what the memory holds -/

section Holds
variable {mem : RequestMemory} {ledger : RequestLedger} {ctrl' : CurlData} {alloc : HeaderAlloc}
  {key value : JString}

theorem Holds.oomThrow (h : Holds mem ledger) :
    Holds mem.oomThrow ⟨ledger.ctrl.oomThrow, ledger.lostNodes, ledger.lostTexts⟩ := by
  obtain ⟨list, lost, others, hshows, hlost⟩ := h.memory
  exact ⟨⟨list, lost, others, ⟨hshows.lists, hshows.texts, hshows.reads⟩, hlost⟩, h.count,
    congrArg (·.throw (.byCallback .oom none 0)) h.env⟩

theorem scanHeaders_kept {key : JString} {count : Nat} {outHeaders : List (List UInt8)} :
    (CurlData.scanHeaders (narrow key) false ⟨[], none, count⟩ outHeaders).kept =
      if outHeaders.head?.any (CurlData.beginsWith key) then []
      else outHeaders.filter fun data => !CurlData.beginsWith key data := by
  cases outHeaders with
  | nil => rfl
  | cons data headers =>
    rw [CurlData.scanHeaders, List.head?_cons, Option.any_some, CurlData.beginsWith]
    by_cases hmatch : strncasecmpZero (narrow key) data (narrow key).length = true
    · rw [if_pos hmatch, if_neg (by decide), if_pos rfl, if_pos hmatch]
    · rw [if_neg hmatch, if_neg hmatch]
      have hremove := @CurlData.scanHeaders_remove (narrow key) headers ⟨[data], none, count⟩
        (List.cons_ne_nil _ _)
      obtain ⟨_, hscan, -⟩ := hremove
      rw [List.nil_append, hscan, List.filter_cons_of_pos (by simp [CurlData.beginsWith, hmatch])]
      rfl

/-- `setHeader` with a value. -/
theorem Holds.setValue (h : Holds mem ledger) (hbuffer : alloc.localBuffer = true)
    (hctrl : ledger.ctrl.setHeader alloc key (some value) = some ctrl') :
    ∃ mem', mem.setHeader alloc key (some value) = some mem' ∧
      Holds mem' ⟨ctrl', ledger.lostNodes, ledger.lostTexts⟩ := by
  obtain ⟨list, lost, others, hshows, hlost⟩ := h.memory
  have hsep : (if some value = some [] then (59 : UInt8) else 58) =
      if value.length = 0 then 59 else 58 := by
    simp only [Option.some.injEq, List.length_eq_zero_iff]
  have hmalloc := hshows.malloc (narrow key ++ [if value.length = 0 then 59 else 58])
  have hstart : Shows (mem.mallocText (narrow key ++ [if value.length = 0 then 59 else 58]))
    ([] ++ list) lost (mem.texts.top :: others) ([] ++ ledger.ctrl.outHeaders) := hmalloc
  have hlast : ([] : List (Nat × Nat)) ≠ [] ∨ list = [] →
      mem.outHeaders = ([] : List (Nat × Nat)).getLast?.map Prod.fst := by
    rintro (hne | rfl)
    · exact absurd rfl hne
    · exact hshows.outHeaders_eq
  have hmarks : Marks ([] ++ list) none none := ⟨rfl, nofun⟩
  obtain ⟨newHeader, i, hscan, hscanned, hmarks⟩ := hstart.scan_value (narrow key)
    ledger.ctrl.outHeaderCount rfl (Nat.le_of_lt hmalloc.length_lt_fuel) hlast hmarks
  rw [List.nil_append] at hscan hscanned hmarks
  rw [CurlData.setHeader, if_neg (by simp [hbuffer]), Option.isSome_some, hscanned] at hctrl
  rw [RequestMemory.setHeader, if_neg (by simp [hbuffer]), hsep, Option.isSome_some]
  dsimp only at hctrl ⊢
  rw [hshows.outHeaders_eq] at hscan
  rw [hmalloc.outHeaders_eq, hscan, Option.bind_some]
  cases i with
  | none =>
    rw [hmarks.1, Option.bind_none]
    by_cases hentry : alloc.entry = true
    · simp only [hentry, if_true] at hctrl
      cases hctrl
      obtain ⟨mem', hinsert, hshows', hcount, henv⟩ := hmalloc.link
        (narrow key ++ (if value.length = 0 then 59 else 58) :: narrow value) hentry
      refine ⟨mem', hinsert, ⟨_, lost, others, hshows', hlost⟩, ?_, henv.trans h.env⟩
      rw [hcount]
      exact congrArg (fun n => toUInt16 (n + 1)) h.count
    · simp [hentry] at hctrl
  | some i =>
    cases hctrl
    have hlt : i < list.length := hmarks.2 i rfl
    have hlt' : i < ledger.ctrl.outHeaders.length := hshows.reads.length_eq ▸ hlt
    have hpointer : newHeader = some (list[i]).1 := by
      rw [hmarks.1, Option.bind_some, List.getElem?_eq_getElem hlt, Option.map_some]
    have hsplit := hmalloc
    rw [← List.take_append_drop i list, ← List.take_append_drop i ledger.ctrl.outHeaders,
      List.drop_eq_getElem_cons hlt, List.drop_eq_getElem_cons hlt'] at hsplit
    obtain ⟨mem', hinsert, hshows', haside⟩ := hsplit.replace alloc
      (narrow key ++ (if value.length = 0 then 59 else 58) :: narrow value)
      (by simp [hshows.reads.length_eq]) (list.getLast?.map Prod.fst)
    rw [hpointer]
    have htexts : ledger.ctrl.outHeaders.set i
        (narrow key ++ (if value.length = 0 then 59 else 58) :: narrow value) = _ :=
      List.set_eq_take_append_cons_drop.trans (if_pos hlt')
    rw [← htexts] at hshows'
    exact ⟨mem', hinsert, ⟨_, lost, others, hshows', hlost⟩, (congrArg Prod.fst haside).trans h.count,
      (congrArg Prod.snd haside).trans h.env⟩

/-- What is lost at the head, and what is lost by an append that has no memory. -/
theorem loses_setNull (hbuffer : alloc.localBuffer = true) (count : Nat)
    (outHeaders : List (List UInt8)) :
    let atHead := outHeaders.head?.any (CurlData.beginsWith key)
    let behind := if alloc.entry then 0 else
      (CurlData.scanHeaders (narrow key) false ⟨[], none, count⟩ outHeaders).kept.length
    (HeaderRequest.setHeader alloc key none).loses outHeaders =
      ((if atHead then outHeaders.length else 0) + behind,
        (if atHead then outHeaders.length - 1 else 0) + behind) := by
  dsimp only
  rw [scanHeaders_kept, HeaderRequest.loses, if_neg (by simp [hbuffer])]
  cases outHeaders.head?.any (CurlData.beginsWith key) <;> cases alloc.entry <;> simp

/-- `setHeader` without a value. -/
theorem Holds.setNull (h : Holds mem ledger) (hbuffer : alloc.localBuffer = true)
    (hctrl : ledger.ctrl.setHeader alloc key none = some ctrl') :
    ∃ mem', mem.setHeader alloc key none = some mem' ∧
      Holds mem' ⟨ctrl',
        ledger.lostNodes + ((HeaderRequest.setHeader alloc key none).loses ledger.ctrl.outHeaders).1,
        ledger.lostTexts +
          ((HeaderRequest.setHeader alloc key none).loses ledger.ctrl.outHeaders).2⟩ := by
  obtain ⟨list, lost, others, hshows, hlost, hothers⟩ := h.memory
  have hmalloc := hshows.malloc (narrow key ++ [58])
  obtain ⟨mem₁, list₁, lost₁, dropped₁, lastHdr₁, hscan, hshows₁, hlost₁, hdropped₁, hcount₁, henv₁⟩ :=
    hmalloc.scanAll_null (narrow key)
  have hperm : (dropped₁ ++ mem.texts.top :: others).Perm (mem.texts.top :: (dropped₁ ++ others)) :=
    List.perm_middle
  obtain ⟨hwrite, hshows₂⟩ := (hshows₁.perm hperm).writeText (narrow key ++ [58])
  obtain ⟨mem₃, list₃, lost₃, dropped₃, happend, hshows₃, hlost₃, hdropped₃, haside₃⟩ :=
    hshows₂.slistAppend alloc (narrow key ++ [58])
  obtain ⟨mem₄, hfree, hshows₄, haside₄⟩ := (hshows₃.perm List.perm_middle).freeText
  have haside := haside₄.trans haside₃
  have hcount : (mem.mallocText (narrow key ++ [58])).outHeaderCount =
    ledger.ctrl.outHeaderCount := h.count
  rw [hcount] at hshows₄ hcount₁ hlost₃ hdropped₃
  rw [CurlData.setHeader, if_neg (by simp [hbuffer]), Option.isSome_none] at hctrl
  cases hctrl
  refine ⟨mem₄, ?_, ⟨list₃, lost₃, dropped₃ ++ (dropped₁ ++ others), hshows₄, ?_, ?_⟩, ?_, ?_⟩
  · rw [RequestMemory.setHeader, if_neg (by simp [hbuffer])]
    dsimp only [Option.isSome_none]
    rw [if_neg (by simp), hscan, Option.bind_some]
    dsimp only
    rw [hwrite, Option.bind_some, happend, Option.bind_some, hfree]
  · rw [hlost₃, hlost₁, hlost, loses_setNull hbuffer ledger.ctrl.outHeaderCount, Nat.add_assoc]
    rfl
  · rw [List.length_append, hdropped₃, List.length_append, hdropped₁, hothers,
      loses_setNull hbuffer ledger.ctrl.outHeaderCount, Nat.add_comm, Nat.add_comm _ ledger.lostTexts,
      Nat.add_assoc]
    rfl
  · exact (congrArg Prod.fst haside).trans hcount₁
  · exact (congrArg Prod.snd haside).trans (henv₁.trans h.env)

/-- `addHeader`, with its buffer on the stack or in a block. -/
theorem Holds.addHeader (h : Holds mem ledger) (alloc : HeaderAlloc) (key value : JString) :
    ∃ mem', mem.addHeader alloc key value = some mem' ∧
      Holds mem' ⟨ledger.ctrl.addHeader alloc key value,
        ledger.lostNodes + ((HeaderRequest.addHeader alloc key value).loses ledger.ctrl.outHeaders).1,
        ledger.lostTexts +
          ((HeaderRequest.addHeader alloc key value).loses ledger.ctrl.outHeaders).2⟩ := by
  obtain ⟨list, lost, others, hshows, hlost, hothers⟩ := h.memory
  have hloses : ¬ (MAX_LOCAL_ALLOC ≤ key.length + value.length + 1 ∧ alloc.localBuffer = false) →
      (HeaderRequest.addHeader alloc key value).loses ledger.ctrl.outHeaders =
        (if alloc.entry then 0 else ledger.ctrl.outHeaders.length,
          if alloc.entry then 0 else ledger.ctrl.outHeaders.length) := by
    intro hnot
    rw [HeaderRequest.loses]
    cases alloc.entry <;> simp [hnot]
  have hcounted : ∀ mem₁ : RequestMemory, mem₁.aside = mem.aside →
      toUInt16 (mem₁.outHeaderCount + 1) = toUInt16 (ledger.ctrl.outHeaderCount + 1) := by
    intro mem₁ haside
    rw [show mem₁.outHeaderCount = mem.outHeaderCount from congrArg Prod.fst haside, h.count]
  rw [RequestMemory.addHeader, CurlData.addHeader]
  dsimp only
  by_cases hsmall : key.length + value.length + 1 < MAX_LOCAL_ALLOC
  · have hnot : ¬ (MAX_LOCAL_ALLOC ≤ key.length + value.length + 1 ∧ alloc.localBuffer = false) :=
      fun hboth => Nat.not_lt.mpr hboth.1 hsmall
    obtain ⟨mem₁, list₁, lost₁, dropped₁, happend, hshows₁, hlost₁, hdropped₁, haside₁⟩ :=
      hshows.slistAppend alloc (narrow key ++ (if value.length = 0 then 59 else 58) :: narrow value)
    rw [if_pos hsmall, if_neg hnot, hloses hnot, countedAppend, happend]
    refine ⟨_, rfl, ⟨list₁, lost₁, dropped₁ ++ others, ⟨hshows₁.lists, hshows₁.texts, hshows₁.reads⟩,
      ?_, ?_⟩, hcounted mem₁ haside₁, (congrArg Prod.snd haside₁).trans h.env⟩
    · rw [hlost₁, hlost]
    · rw [List.length_append, hdropped₁, hothers, Nat.add_comm]
  by_cases hbuffer : alloc.localBuffer = false
  · have hboth : MAX_LOCAL_ALLOC ≤ key.length + value.length + 1 ∧ alloc.localBuffer = false :=
      ⟨Nat.not_lt.mp hsmall, hbuffer⟩
    rw [if_neg hsmall, if_pos hbuffer, if_pos hboth, HeaderRequest.loses, if_pos (Or.inl hboth)]
    exact ⟨_, rfl, h.oomThrow⟩
  · have hnot : ¬ (MAX_LOCAL_ALLOC ≤ key.length + value.length + 1 ∧ alloc.localBuffer = false) :=
      fun hboth => hbuffer hboth.2
    have hmalloc :=
      hshows.malloc (narrow key ++ (if value.length = 0 then 59 else 58) :: narrow value)
    obtain ⟨mem₁, list₁, lost₁, dropped₁, happend, hshows₁, hlost₁, hdropped₁, haside₁⟩ :=
      hmalloc.slistAppend alloc (narrow key ++ (if value.length = 0 then 59 else 58) :: narrow value)
    have hshows₂ := hshows₁.perm List.perm_middle
    have hcountedUp : Shows { mem₁ with outHeaderCount := toUInt16 (mem₁.outHeaderCount + 1) } list₁
        lost₁ (mem.texts.top :: (dropped₁ ++ others)) _ :=
      ⟨hshows₂.lists, hshows₂.texts, hshows₂.reads⟩
    obtain ⟨mem₂, hfree, hshows₃, haside₃⟩ := hcountedUp.freeText
    rw [if_neg hsmall, if_neg hbuffer, if_neg hnot, hloses hnot, countedAppend, happend,
      Option.map_some, Option.bind_some]
    refine ⟨mem₂, hfree, ⟨list₁, lost₁, dropped₁ ++ others, hshows₃, ?_, ?_⟩, ?_, ?_⟩
    · rw [hlost₁, hlost]
    · rw [List.length_append, hdropped₁, hothers, Nat.add_comm]
    · exact (congrArg Prod.fst haside₃).trans (hcounted mem₁ haside₁)
    · exact (congrArg Prod.snd haside₃).trans ((congrArg Prod.snd haside₁).trans h.env)

end Holds

/-! ### Reading and freeing the list -/

section Walks
variable {mem : RequestMemory} {list front rest : List (Nat × Nat)} {lost : List (List (Nat × Nat))}
  {others : List Nat} {outHeaders kept headers : List (List UInt8)} {ledger : RequestLedger}

/-- **The loop of `outHeader`** finds what a search of the list of texts finds. -/
theorem Shows.findText (key : List UInt8) {fuel : Nat}
    (h : Shows mem (front ++ rest) lost others (kept ++ headers))
    (hlength : front.length = kept.length) (hfuel : rest.length ≤ fuel) :
    RequestMemory.findText key mem fuel (rest.head?.map Prod.fst) =
      CurlData.findOutHeader key headers := by
  induction rest generalizing front kept headers fuel with
  | nil =>
    have hnil : headers = [] := List.forall₂_nil_left_iff.mp (forall₂_split h.reads hlength).2
    rw [hnil, List.head?_nil, Option.map_none, RequestMemory.findText, CurlData.findOutHeader]
  | cons n rest ih =>
    cases headers with
    | nil => cases (forall₂_split h.reads hlength).2
    | cons data headers =>
      obtain ⟨hnode, htext⟩ := h.read hlength
      obtain ⟨fuel, rfl⟩ := Nat.exists_eq_succ_of_ne_zero (Nat.ne_of_gt (Nat.lt_of_lt_of_le
        (Nat.succ_pos _) hfuel))
      rw [List.append_cons front, List.append_cons kept] at h
      have hnext := ih h (by simp [hlength]) (Nat.le_of_succ_le_succ hfuel)
      rw [List.head?_cons, Option.map_some, RequestMemory.findText, hnode, Option.bind_some, htext,
        Option.bind_some, CurlData.findOutHeader, hnext]

/-- **`curl_slist_free_all`** frees each node and its text once. -/
theorem Shows.freeAll {roots : List (Option Nat)} {fuel : Nat}
    (hlists : Lists mem.nodes.memory (list.head?.map Prod.fst :: roots) (list :: lost))
    (htexts : Allocated mem.texts (list.map Prod.snd ++ others)) (hfuel : list.length ≤ fuel) :
    ∃ mem', RequestMemory.freeAll fuel (list.head?.map Prod.fst) mem = some mem' ∧
      Lists mem'.nodes.memory roots lost ∧ Allocated mem'.texts others ∧
      mem'.nodes.roots = mem.nodes.roots ∧ mem'.aside = mem.aside := by
  induction list generalizing mem fuel with
  | nil =>
    refine ⟨mem, by rw [List.head?_nil, Option.map_none, RequestMemory.freeAll], ?_, htexts, rfl, rfl⟩
    have hnil : Lists mem.nodes.memory ([] ++ none :: roots) ([] ++ [] :: lost) := hlists
    exact hnil.drop_nil rfl
  | cons n list ih =>
    obtain ⟨fuel, rfl⟩ := Nat.exists_eq_succ_of_ne_zero (Nat.ne_of_gt (Nat.lt_of_lt_of_le
      (Nat.succ_pos _) hfuel))
    obtain ⟨next, memory, hread, hfree, hrest⟩ := hlists.free
    obtain ⟨hfreeText, htexts'⟩ := htexts.free
    obtain ⟨_, hroots, -⟩ := first_split hrest
    obtain ⟨rfl, -⟩ := List.cons_eq_cons.mp hroots
    obtain ⟨mem', hmem', h'⟩ := @ih { mem with
      nodes := { mem.nodes with memory }, texts := mem.texts.set n.2 none } fuel hrest htexts'
        (Nat.le_of_succ_le_succ hfuel)
    refine ⟨mem', ?_, h'⟩
    rw [List.head?_cons, Option.map_some, RequestMemory.freeAll, hread, Option.bind_some,
      RequestMemory.freeText, hfreeText, Option.map_some, Option.bind_some, hfree, Option.bind_some,
      hmem']

theorem Shows.textsFrom {fuel : Nat} (h : Shows mem (front ++ rest) lost others (kept ++ headers))
    (hlength : front.length = kept.length) (hfuel : rest.length ≤ fuel) :
    RequestMemory.textsFrom mem fuel (rest.head?.map Prod.fst) = some headers := by
  induction rest generalizing front kept headers fuel with
  | nil =>
    have hnil : headers = [] := List.forall₂_nil_left_iff.mp (forall₂_split h.reads hlength).2
    rw [hnil, List.head?_nil, Option.map_none, RequestMemory.textsFrom]
  | cons n rest ih =>
    cases headers with
    | nil => cases (forall₂_split h.reads hlength).2
    | cons data headers =>
      obtain ⟨hnode, htext⟩ := h.read hlength
      obtain ⟨fuel, rfl⟩ := Nat.exists_eq_succ_of_ne_zero (Nat.ne_of_gt (Nat.lt_of_lt_of_le
        (Nat.succ_pos _) hfuel))
      rw [List.append_cons front, List.append_cons kept] at h
      have hnext := ih h (by simp [hlength]) (Nat.le_of_succ_le_succ hfuel)
      rw [List.head?_cons, Option.map_some, RequestMemory.textsFrom, hnode, Option.bind_some, htext,
        Option.bind_some, hnext]
      rfl

/-- What freeing the whole list leaves: the lost nodes and texts. -/
theorem Shows.freeList (h : Shows mem list lost others outHeaders) :
    ∃ mem' roots, RequestMemory.freeAll mem.fuel mem.outHeaders mem = some mem' ∧
      Lists mem'.nodes.memory roots lost ∧ Allocated mem'.texts others ∧
      mem'.nodes.roots = list.head?.map Prod.fst :: roots ∧ mem'.aside = mem.aside := by
  obtain ⟨roots, hroots, -⟩ := first_split h.lists
  have hlists := h.lists
  rw [hroots] at hlists
  obtain ⟨mem', hfree, hlost, htexts, hsame, haside⟩ :=
    Shows.freeAll hlists h.texts (Nat.le_of_lt h.length_lt_fuel)
  exact ⟨mem', roots, by rw [h.outHeaders_eq, hfree], hlost, htexts, hsame.trans hroots, haside⟩

theorem Holds.clearHeaders (h : Holds mem ledger) :
    ∃ mem', mem.clearHeaders = some mem' ∧
      Holds mem' ⟨ledger.ctrl.clearHeaders, ledger.lostNodes, ledger.lostTexts⟩ := by
  obtain ⟨list, lost, others, hshows, hlost⟩ := h.memory
  obtain ⟨mem', roots, hfree, hlists, htexts, hroots, haside⟩ := hshows.freeList
  refine ⟨{ mem' with
      nodes := { mem'.nodes with roots := mem'.nodes.roots.set 0 none }, outHeaderCount := 0 },
    by rw [RequestMemory.clearHeaders, hfree]; rfl, ⟨[], lost, others, ⟨?_, htexts, .nil⟩, hlost⟩,
    rfl, (congrArg Prod.snd haside).trans h.env⟩
  show Lists mem'.nodes.memory (mem'.nodes.roots.set 0 none) _
  rw [hroots]
  exact hlists.replicate_nil 1

theorem Holds.outHeader (h : Holds mem ledger) {platform : Platform} {alloc : HeaderAlloc}
    {stringOk : Bool} {key : JString} {ctrl' : CurlData} {answer : Option JString}
    (hctrl : ledger.ctrl.outHeader platform alloc stringOk key = some (ctrl', answer)) :
    ∃ mem', mem.outHeader platform alloc stringOk key = some (mem', answer) ∧
      Holds mem' ⟨ctrl', ledger.lostNodes, ledger.lostTexts⟩ := by
  obtain ⟨list, lost, others, hshows, hlost⟩ := h.memory
  have hfirst : Shows mem ([] ++ list) lost others ([] ++ ledger.ctrl.outHeaders) := hshows
  have hfind := hfirst.findText (narrow key) rfl (Nat.le_of_lt hshows.length_lt_fuel)
  rw [← hshows.outHeaders_eq] at hfind
  have hnull : mem.outHeaders = none ↔ ledger.ctrl.outHeaders = [] := by
    rw [hshows.outHeaders_eq, ← List.length_eq_zero_iff, ← hshows.reads.length_eq,
      List.length_eq_zero_iff, Option.map_eq_none_iff, List.head?_eq_none_iff]
  rw [CurlData.outHeader] at hctrl
  rw [RequestMemory.outHeader, h.count, hfind]
  simp only [hnull]
  split at hctrl
  · rename_i hzero
    cases hctrl
    rw [if_pos hzero]
    exact ⟨mem, rfl, h⟩
  rename_i hzero
  rw [if_neg hzero]
  split at hctrl
  · cases hctrl
  rename_i hread
  rw [if_neg hread]
  cases hfound : CurlData.findOutHeader (narrow key) ledger.ctrl.outHeaders with
  | none =>
    rw [hfound] at hctrl
    cases hctrl
  | some found =>
    rw [hfound] at hctrl
    cases found with
    | none =>
      cases hctrl
      exact ⟨mem, rfl, h⟩
    | some data =>
      cases stringOk with
      | true =>
        cases hctrl
        exact ⟨mem, rfl, h⟩
      | false =>
        cases hctrl
        exact ⟨_, rfl, ⟨list, lost, others, ⟨hshows.lists, hshows.texts, hshows.reads⟩, hlost⟩,
          rfl, congrArg (·.throw .outOfMemoryError) h.env⟩

end Walks

/-! ## Runs -/

/-- **Every call works in memory as it does on the list of texts.** -/
theorem simulates_request :
    Machine.Simulates Holds RequestMemory.request RequestLedger.request := by
  rintro mem ledger request ledger' answer h hrequest
  obtain ⟨⟨ctrl', answer'⟩, hctrl, heq⟩ := Option.map_eq_some_iff.mp hrequest
  cases heq
  cases request with
  | setHeader alloc key value =>
    obtain ⟨ctrl', hset, heq⟩ := Option.map_eq_some_iff.mp hctrl
    cases heq
    by_cases hbuffer : alloc.localBuffer = false
    · refine ⟨mem.oomThrow, ?_, ?_⟩
      · rw [RequestMemory.request, RequestMemory.setHeader, if_pos hbuffer]
        rfl
      · rw [CurlData.setHeader, if_pos hbuffer] at hset
        cases hset
        have hnone : (HeaderRequest.setHeader alloc key value).loses ledger.ctrl.outHeaders = (0, 0) := by
          cases value with
          | none => rw [HeaderRequest.loses, if_pos hbuffer]
          | some value => rfl
        rw [hnone]
        exact h.oomThrow
    · have hbuffer : alloc.localBuffer = true := Bool.not_eq_false _ ▸ hbuffer
      cases value with
      | none =>
        obtain ⟨mem', hmem, hmem'⟩ := h.setNull hbuffer hset
        exact ⟨mem', by rw [RequestMemory.request, hmem]; rfl, hmem'⟩
      | some value =>
        obtain ⟨mem', hmem, hmem'⟩ := h.setValue hbuffer hset
        exact ⟨mem', by rw [RequestMemory.request, hmem]; rfl, hmem'⟩
  | addHeader alloc key value =>
    cases hctrl
    obtain ⟨mem', hmem, hmem'⟩ := h.addHeader alloc key value
    exact ⟨mem', by rw [RequestMemory.request, hmem]; rfl, hmem'⟩
  | outHeader platform alloc stringOk key =>
    obtain ⟨mem', hmem, hmem'⟩ := h.outHeader hctrl
    exact ⟨mem', hmem, hmem'⟩
  | clearHeaders =>
    cases hctrl
    obtain ⟨mem', hmem, hmem'⟩ := h.clearHeaders
    exact ⟨mem', by rw [RequestMemory.request, hmem]; rfl, hmem'⟩

theorem holds_fresh : Holds fresh ⟨nativeCreate, 0, 0⟩ where
  memory := ⟨[], [], [], ⟨lists_empty.replicate_nil 1, allocated_empty, .nil⟩, rfl, rfl⟩
  count := rfl
  env := rfl

/-- **The request headers in memory.**  Calls that set, add, read and clear request headers on
a fresh handle, with any outcome of their allocations, follow no dangling pointer and free
nothing twice, unless they do what the calls on the list of texts do not come back from.  They
return what those return; in the end the nodes lead to those texts, and what is allocated
beyond them is what the ledger has written down as lost, which is also what is left when the
handle is disposed of. -/
theorem headers_in_memory (requests : List HeaderRequest) {ledger : RequestLedger}
    {answers : List (Option JString)}
    (hrun : Machine.run RequestLedger.request ⟨nativeCreate, 0, 0⟩ requests = some (ledger, answers)) :
    ∃ mem, Machine.run request fresh requests = some (mem, answers) ∧
      mem.headerTexts = some ledger.ctrl.outHeaders ∧
      {p | mem.nodes.memory.read p ≠ none}.ncard = ledger.ctrl.outHeaders.length + ledger.lostNodes ∧
      {p | mem.texts.read p ≠ none}.ncard = ledger.ctrl.outHeaders.length + ledger.lostTexts ∧
      ∃ left, mem.disposeHeaders = some left ∧
        {p | left.nodes.memory.read p ≠ none}.ncard = ledger.lostNodes ∧
        {p | left.texts.read p ≠ none}.ncard = ledger.lostTexts := by
  obtain ⟨mem, hmem, h⟩ := simulates_request.run requests _ _ _ _ holds_fresh hrun
  obtain ⟨list, lost, others, hshows, hlost, hothers⟩ := h.memory
  obtain ⟨left, roots, hleft, hlists, htexts, -, -⟩ := hshows.freeList
  refine ⟨mem, hmem, ?_, ?_, ?_, left, hleft, ?_, ?_⟩
  · have hfirst : Shows mem ([] ++ list) lost others ([] ++ ledger.ctrl.outHeaders) := hshows
    rw [headerTexts, hshows.outHeaders_eq]
    exact hfirst.textsFrom rfl (Nat.le_of_lt hshows.length_lt_fuel)
  · rw [hshows.lists.allocated.ncard, length_cellsIn_cons, hlost, hshows.reads.length_eq,
      Nat.add_comm]
  · rw [hshows.texts.ncard, List.length_append, List.length_map, hothers, hshows.reads.length_eq]
  · rw [hlists.allocated.ncard, hlost]
  · rw [htexts.ncard, hothers]

/-- Two headers are set, and the first of them is removed: its node and the other header are
lost. -/
def lostHeaders : List HeaderRequest :=
  [.setHeader CurlData.allocOk [97] (some [49]), .addHeader CurlData.allocOk [98] [50],
    .setHeader CurlData.allocOk [65] none]

theorem headers_in_memory_lostHeaders :
    ∃ mem, Machine.run request fresh lostHeaders = some (mem, [none, none, none]) ∧
      mem.headerTexts = some [[65, 58]] ∧
      {p | mem.nodes.memory.read p ≠ none}.ncard = 1 + 2 ∧
      {p | mem.texts.read p ≠ none}.ncard = 1 + 1 ∧
      ∃ left, mem.disposeHeaders = some left ∧
        {p | left.nodes.memory.read p ≠ none}.ncard = 2 ∧
        {p | left.texts.read p ≠ none}.ncard = 1 :=
  @headers_in_memory lostHeaders
    ⟨{ nativeCreate with outHeaders := [[65, 58]], outHeaderCount := 2 }, 2, 1⟩ _ rfl

/-- The call overwrites the pointer to a list: it removes the first header, or it appends
without memory for the node. -/
def LosesList (outHeaders : List (List UInt8)) : HeaderRequest → Prop
  | .setHeader alloc key none =>
      alloc.localBuffer = true ∧ (outHeaders.head?.any (CurlData.beginsWith key) = true ∨
        alloc.entry = false ∧ ∃ data ∈ outHeaders, CurlData.beginsWith key data = false)
  | .addHeader alloc key value =>
      (key.length + value.length + 1 < MAX_LOCAL_ALLOC ∨ alloc.localBuffer = true) ∧
        alloc.entry = false ∧ outHeaders ≠ []
  | _ => False

theorem loses_eq_zero_iff (outHeaders : List (List UInt8)) (request : HeaderRequest) :
    (request.loses outHeaders).1 = 0 ↔ ¬ LosesList outHeaders request := by
  cases request with
  | setHeader alloc key value =>
    cases value with
    | some value => exact iff_of_true rfl id
    | none =>
      rw [HeaderRequest.loses, LosesList]
      by_cases hbuffer : alloc.localBuffer = false
      · simp [hbuffer]
      have hbuffer : alloc.localBuffer = true := Bool.not_eq_false _ ▸ hbuffer
      rw [if_neg (by simp [hbuffer])]
      by_cases hhead : outHeaders.head?.any (CurlData.beginsWith key) = true
      · rw [if_pos hhead]
        refine iff_of_false (fun hzero => ?_) (not_not.mpr ⟨hbuffer, Or.inl hhead⟩)
        rw [List.length_eq_zero_iff.mp hzero] at hhead
        cases hhead
      · rw [if_neg hhead]
        cases hentry : alloc.entry <;> simp [hbuffer, hhead]
  | addHeader alloc key value =>
    rw [HeaderRequest.loses, LosesList]
    cases hentry : alloc.entry
    · cases hbuffer : alloc.localBuffer
      · by_cases hlarge : MAX_LOCAL_ALLOC ≤ key.length + value.length + 1
        · simp [hlarge, Nat.not_lt.mpr hlarge]
        · simp [hlarge, Nat.not_le.mp hlarge]
      · simp
    · simp
  | outHeader platform alloc stringOk key => exact iff_of_true rfl id
  | clearHeaders => exact iff_of_true rfl id

/-- **No header leaks exactly when no call overwrites the pointer to a list**: nothing is left
of the headers' nodes when the handle is disposed of behind the calls. -/
theorem nothing_leaks_iff (requests : List HeaderRequest) {ledger : RequestLedger}
    {answers : List (Option JString)}
    (hrun : Machine.run RequestLedger.request ⟨nativeCreate, 0, 0⟩ requests = some (ledger, answers)) :
    ∃ mem left, Machine.run request fresh requests = some (mem, answers) ∧
      mem.disposeHeaders = some left ∧
      ((∀ p, left.nodes.memory.read p = none) ↔ ∀ before request, before ++ [request] <+: requests →
        ∀ ledger' answers', Machine.run RequestLedger.request ⟨nativeCreate, 0, 0⟩ before =
          some (ledger', answers') → ¬ LosesList ledger'.ctrl.outHeaders request) := by
  obtain ⟨mem, hmem, h⟩ := simulates_request.run requests _ _ _ _ holds_fresh hrun
  obtain ⟨list, lost, others, hshows, hlost, -⟩ := h.memory
  obtain ⟨left, roots, hleft, hlists, -, -, -⟩ := hshows.freeList
  have hnone : (∀ p, left.nodes.memory.read p = none) ↔ ledger.lostNodes = 0 := by
    rw [← hlost, List.length_eq_zero_iff, List.eq_nil_iff_forall_not_mem]
    exact forall_congr' fun p => by rw [← hlists.live p, not_not]
  refine ⟨mem, left, hmem, hleft, hnone.trans ?_⟩
  refine (Machine.run_count_iff (fun ledger request ledger' answer hstep => ?_) requests hrun).2
  obtain ⟨⟨ctrl', answer'⟩, -, heq⟩ := Option.map_eq_some_iff.mp hstep
  cases heq
  rw [← loses_eq_zero_iff]
  exact ⟨Nat.le_add_right _ _, Nat.add_eq_left⟩

/-- Two headers are added, and the second of them is removed. -/
def keptHeaders : List HeaderRequest :=
  [.addHeader CurlData.allocOk [97] [49], .addHeader CurlData.allocOk [98] [50],
    .setHeader CurlData.allocOk [98] none]

theorem nothing_leaks_keptHeaders :
    ∃ mem left, Machine.run request fresh keptHeaders = some (mem, [none, none, none]) ∧
      mem.disposeHeaders = some left ∧
      ((∀ p, left.nodes.memory.read p = none) ↔ ∀ before request,
        before ++ [request] <+: keptHeaders → ∀ ledger' answers',
          Machine.run RequestLedger.request ⟨nativeCreate, 0, 0⟩ before = some (ledger', answers') →
            ¬ LosesList ledger'.ctrl.outHeaders request) :=
  @nothing_leaks_iff keptHeaders
    ⟨{ nativeCreate with outHeaders := [[97, 58, 49], [98, 58]], outHeaderCount := 1 }, 0, 0⟩ _ rfl

end RequestMemory
end Chttpc
