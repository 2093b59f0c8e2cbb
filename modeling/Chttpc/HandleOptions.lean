import Chttpc.CurlConnection

/-!
# The options of a handle

An option that has been set with `curl_easy_setopt` stays set: `curl_multi_remove_handle` and
`Curl.reset` do not touch it.  A handle is used for one request after another, so a request may
go out under an option that an earlier one has left over.

Most options are cells of their own in libcurl, which hold what they were last set to.  The
options for the kind of a request are not: to set one of them takes others back.  Nor does
libcurl take every number that `setOptionInt` hands it.  What is said here is about the rest
(`apart`).

`nativeConfigure` sets most of them every time, but some only for certain arguments.  An option
is left over exactly if the call does not set it and an earlier one has (`option_isolated_iff`).
-/

namespace Chttpc
open Program

/-! ## What can be set -/

/-- The options that are set by `nativeCreate`, by `nativeConfigure` and `closeOutput`, and by
`setOptionInt`. -/
inductive CURLoption
  | connectTimeoutMs | httpVersion | sslVerifyPeer | proxySslVerifyPeer | sslVerifyHost
  | proxySslVerifyHost | sslOptions | verbose | debugFunction | httpTransferDecoding
  | httpContentDecoding | ipResolve | transferEncoding | tcpNodelay | keepSendingOnError
  | sslFalseStart | tcpFastOpen | tcpKeepAlive | netrc | seekFunction | openSocketFunction
  | headerFunction | writeData | readData | headerData | noSignal | pathAsIs
  | suppressConnectHeaders | errorBuffer
  | url | followLocation | proxyType | proxy | preProxy | upload | noBody | httpGet
  | customRequest | inFileSizeLarge | httpHeader | dnsServers | interface
  | writeFunction | readFunction
  | tcpKeepIntvl | tcpKeepIdle | expect100TimeoutMs | maxConnects | maxRedirs
  deriving DecidableEq, Repr

/-- What an option is set to: a number, a text that libcurl copies, the list of request headers,
or one of the names that `native-lib.c` uses. -/
inductive OptionValue
  | long (n : Int)
  | text (text : List UInt8)
  | null
  | slist (texts : List (List UInt8))
  | write (f : WriteFunction)
  | read (f : ReadFunction)
  | httpVersion2Tls | sslOptAllowBeastNoRevoke | ipResolveWhatever | ipResolveV4 | netrcIgnored
  | proxyHttps | proxySocks5Hostname
  | logcatTracer | seekCallback | opensocketCallback | headerCallback
  | ctrl | errorBuffer
  deriving DecidableEq, Repr

/-- A call of `curl_easy_setopt`. -/
abbrev Setopt : Type := CURLoption × OptionValue

/-- The bits of the flags of `nativeCreate`. -/
inductive CreateFlag
  | debug | sendAfterError | tcpKeepAlive | tlsFalseStart | tcpFastOpen | rawResponse | tcpNodelay
  | useIpv6 | requestCompression
  deriving DecidableEq, Repr

def CreateFlag.bit : CreateFlag → Nat
  | .debug => 0
  | .sendAfterError => 1
  | .tcpKeepAlive => 2
  | .tlsFalseStart => 3
  | .tcpFastOpen => 4
  | .rawResponse => 5
  | .tcpNodelay => 6
  | .useIpv6 => 7
  | .requestCompression => 8

/-- `flags & FLAG`. -/
def hasFlag (flags : BitVec 32) (flag : CreateFlag) : Bool := flags.getLsbD flag.bit

def OptionValue.ofBool (b : Bool) : OptionValue := .long (if b then 1 else 0)

/-- The options that `nativeCreate` sets; `LONG_MAX` depends on the platform. -/
def nativeCreateOptions (longMax : Int) (flags : BitVec 32) : List Setopt :=
  let flag (f : CreateFlag) : OptionValue := .ofBool (hasFlag flags f)
  [[(.connectTimeoutMs, .long longMax), (.httpVersion, .httpVersion2Tls),
      (.sslVerifyPeer, .long 0), (.proxySslVerifyPeer, .long 0), (.sslVerifyHost, .long 0),
      (.proxySslVerifyHost, .long 0), (.sslOptions, .sslOptAllowBeastNoRevoke)],
    if hasFlag flags .debug then [(.verbose, .long 1), (.debugFunction, .logcatTracer)] else [],
    if hasFlag flags .rawResponse then
      [(.httpTransferDecoding, .long 0), (.httpContentDecoding, .long 0)] else [],
    [(.ipResolve, if hasFlag flags .useIpv6 then .ipResolveWhatever else .ipResolveV4),
      (.transferEncoding, flag .requestCompression), (.tcpNodelay, flag .tcpNodelay),
      (.keepSendingOnError, flag .sendAfterError), (.sslFalseStart, flag .tlsFalseStart),
      (.tcpFastOpen, flag .tcpFastOpen), (.tcpKeepAlive, flag .tcpKeepAlive),
      (.netrc, .netrcIgnored), (.seekFunction, .seekCallback),
      (.writeFunction, .write .writeCallback), (.readFunction, .read .readCallback),
      (.openSocketFunction, .opensocketCallback), (.headerFunction, .headerCallback),
      (.writeData, .ctrl), (.readData, .ctrl), (.headerData, .ctrl), (.noSignal, .long 1),
      (.pathAsIs, .long 1), (.suppressConnectHeaders, .long 1),
      (.errorBuffer, .errorBuffer)]].flatten

/-- `setOptionInt`; a `long` has `width` bits. -/
def intOptions (width : Nat) (value option : Int) : List Setopt :=
  let longMax : Int := 2 ^ (width - 1) - 1
  let capped := if longMax < value then longMax else value.bmod (2 ^ width)
  match option with
  | 0 => [(.tcpKeepIntvl, .long capped), (.tcpKeepIdle, .long capped)]
  | 1 => [(.expect100TimeoutMs, .long capped)]
  | 2 => [(.maxConnects, .long capped)]
  | 3 => [(.maxRedirs, .long capped)]
  | _ => []

/-! ## The options of a request -/

/-- The name of a network interface, by the bytes that `GetStringUTFRegion` writes.  The block
they are written to is twice as long as the string has characters, and holds `"if!"` before and
a NUL behind them; a name that needs more is not looked at here. -/
structure InterfaceName where
  length : Nat
  region : List UInt8
  fits : 3 + region.length < 4 + 2 * length

/-- The arguments of `nativeConfigure` that are passed on to libcurl; the texts of the proxy and
of the interface as JNI shows them. -/
structure PassedOn where
  method : JString
  proxy : Option (List UInt8)
  dns : Option JString
  ifName : Option InterfaceName
  proxyType : Int
  reqType : Int

namespace PassedOn
variable (o : PassedOn)

def proxyOptions : List Setopt :=
  match o.proxy with
  | some proxyStr =>
      match o.proxyType with
      | 2 => [(.proxyType, .proxyHttps), (.proxy, .text proxyStr)]
      | 1 => [(.proxy, .text proxyStr)]
      | 3 => [(.preProxy, .text proxyStr)]
      | 4 => [(.proxyType, .proxySocks5Hostname), (.proxy, .text proxyStr)]
      | _ => []
  | none => [(.proxy, .text [])]

/-- The kind of the request. -/
def kindOption (c : Configure) : Setopt :=
  if c.doOutput then (.upload, .long 1)
  else if o.reqType = 3 ∧ c.doInput = false then (.noBody, .long 1)
  else (.httpGet, .long 1)

/-- The name of the method. -/
def requestMethod : List UInt8 :=
  match o.reqType with
  | 0 => ascii "GET"
  | 2 => ascii "PUT"
  | 3 => ascii "HEAD"
  | 1 => ascii "POST"
  | _ => cString (narrow o.method)

/-- `"if!"`, and the name. -/
def interfaceText (name : InterfaceName) : List UInt8 := cString (ascii "if!" ++ name.region)

/-- The options that `nativeConfigure` sets, once it has its buffer for the URL. -/
def options (c : Configure) (outHeaders : List (List UInt8)) : List Setopt :=
  [(.url, .text (cString c.urlBuffer)), (.followLocation, .ofBool c.followRedirects)] ++
  o.proxyOptions ++
  [o.kindOption c, (.customRequest, .text o.requestMethod),
    (.inFileSizeLarge, .long (if c.fixed then c.fixedLength else -1)),
    (.httpHeader, .slist outHeaders),
    (.dnsServers, (o.dns.map fun dns => .text (cString (narrow dns))).getD .null),
    (.interface, (o.ifName.map fun name => .text (interfaceText name)).getD .null),
    (.writeFunction, .write (if c.doInput then .writeCallback
      else if c.doOutput then .skipReceiveCallback else .abortReceiveCallback))] ++
  if c.doOutput then [(.readFunction, .read .readCallback)] else []

end PassedOn

/-! ## The handle with its options -/

/-- A handle, and the calls of `curl_easy_setopt` on it, the last one first. -/
structure Handle where
  transfer : Transfer
  setopts : List Setopt

/-- What an option is set to, if it has been set: for the options that libcurl keeps apart from
each other, the last call that names one says it. -/
def Handle.option (h : Handle) (option : CURLoption) : Option OptionValue :=
  h.setopts.lookup option

/-- The handle behind `nativeCreate`. -/
def Handle.fresh (longMax : Int) (flags : BitVec 32) (platform : Platform)
    (rodata : Nat → UInt8) : Handle :=
  ⟨.fresh platform rodata, (nativeCreateOptions longMax flags).reverse⟩

def Call.isConfigure : Call → Bool
  | .nativeConfigure _ => true
  | _ => false

theorem Call.isConfigure_reset : Call.reset.isConfigure = false := rfl

theorem Call.isConfigure_closeOutput (c : Close) : (Call.closeOutput c).isConfigure = false := rfl

/-- A native call, with what it passes on to libcurl. -/
inductive HandleCall
  | configure (c : Configure) (o : PassedOn)
  | other (call : Call) (h : call.isConfigure = false)

namespace HandleCall

def call : HandleCall → Call
  | .configure c _ => .nativeConfigure c
  | .other call _ => call

/-- The options that a call sets if it gets the lock, in their order. -/
def options (width : Nat) (outHeaders : List (List UInt8)) : HandleCall → List Setopt
  | .configure c o => if c.urlBufferOk then o.options c outHeaders else []
  | .other (.closeOutput _) _ => [(.readFunction, .read .eofCallback)]
  | .other (.setOptionInt value option) _ => intOptions width value option
  | .other .. => []

/-- The options that a call sets on a handle in this state. -/
def setopts (width : Nat) (t : Transfer) (call : HandleCall) : List Setopt :=
  if t.ctrl.busy then [] else call.options width t.ctrl.outHeaders

/-- Makes a call.  Where it calls libcurl and may not come back, its options have been set. -/
def run (width : Nat) (call : HandleCall) : Program Handle Returned := fun h =>
  (⟨(call.call.run h.transfer).1, (call.setopts width h.transfer).reverse ++ h.setopts⟩,
    (call.call.run h.transfer).2)

/-- Which options a call sets if it gets the lock. -/
def named (call : HandleCall) : List CURLoption := (call.options 64 []).map Prod.fst

end HandleCall

/-- Makes the calls one after another. -/
def runHandle (width : Nat) (calls : List HandleCall) : Program Handle Unit :=
  Program.forEach (HandleCall.run width) calls

/-- The handle does what it does without its options. -/
theorem transfer_runHandle {width : Nat} {calls : List HandleCall} {h : Handle} :
    (runHandle width calls h).1.transfer =
      (runCalls (calls.map HandleCall.call) h.transfer).1 := by
  induction calls generalizing h with
  | nil => rfl
  | cons call calls ih =>
    rw [runHandle, runCalls, List.map_cons, Program.forEach, Program.forEach]
    rcases hrun : call.call.run h.transfer with ⟨t, _ | returned⟩
    · have hcall : call.run width h = (⟨t, (call.setopts width h.transfer).reverse ++ h.setopts⟩,
          none) := by
        rw [HandleCall.run, hrun]
      rw [bind_none hcall, bind_none hrun]
    · have hcall : call.run width h = (⟨t, (call.setopts width h.transfer).reverse ++ h.setopts⟩,
          some returned) := by
        rw [HandleCall.run, hrun]
      rw [bind_some hcall, bind_some hrun]
      exact ih

/-! ## What is left over -/

section LeftOver
variable {width : Nat} {option : CURLoption}

theorem PassedOn.fst_options (o : PassedOn) (c : Configure) (outHeaders : List (List UInt8)) :
    (o.options c outHeaders).map Prod.fst = (o.options c []).map Prod.fst := by
  simp [PassedOn.options]

theorem fst_intOptions (width : Nat) (value n : Int) :
    (intOptions width value n).map Prod.fst = (intOptions 64 value n).map Prod.fst := by
  unfold intOptions
  split <;> rfl

namespace HandleCall

/-- Which options a call sets does not depend on the handle. -/
theorem fst_options (call : HandleCall) (outHeaders : List (List UInt8)) :
    (call.options width outHeaders).map Prod.fst = call.named := by
  cases call with
  | configure c o =>
    show (if c.urlBufferOk = true then _ else _ : List Setopt).map _ =
      (if c.urlBufferOk = true then _ else _ : List Setopt).map _
    split
    · exact PassedOn.fst_options o c outHeaders
    · rfl
  | other call hcall =>
    cases call with
    | setOptionInt value n => exact fst_intOptions width value n
    | _ => rfl

/-- A call that is refused leaves the handle locked. -/
theorem free_of_run {call : HandleCall} {h h' : Handle} {returned : Returned}
    (hrun : call.run width h = (h', some returned)) (hfree : h'.transfer.ctrl.busy = false) :
    h.transfer.ctrl.busy = false := by
  by_contra hbusy
  rw [Bool.not_eq_false] at hbusy
  obtain ⟨answer, htaken⟩ := call.call.run_taken hbusy
  have htransfer : h'.transfer = (call.call.run h.transfer).1 :=
    congrArg (fun r : Handle × Option Returned => r.1.transfer) hrun.symm
  rw [htransfer, htaken, hbusy] at hfree
  cases hfree

end HandleCall

/-- An upload is read with `read_callback`. -/
theorem PassedOn.lookup_readFunction (o : PassedOn) {c : Configure} (h : c.doOutput = true)
    (outHeaders : List (List UInt8)) (old : List Setopt) :
    ((o.options c outHeaders).reverse ++ old).lookup .readFunction =
      some (.read .readCallback) := by
  rw [options, List.reverse_append, h]
  rfl

/-- **What a run has set**: its calls have all had the lock, if it is free in the end, and
each has set its options. -/
theorem setopts_of_run {calls : List HandleCall} {h h' : Handle}
    (hrun : runHandle width calls h = (h', some ())) (hfree : h'.transfer.ctrl.busy = false) :
    h.transfer.ctrl.busy = false ∧
      ∃ sets, h'.setopts = sets ++ h.setopts ∧
        ∀ option, option ∈ sets.map Prod.fst ↔ ∃ call ∈ calls, option ∈ call.named := by
  induction calls generalizing h with
  | nil =>
    cases hrun
    exact ⟨hfree, [], rfl, by simp⟩
  | cons call calls ih =>
    obtain ⟨h₁, returned, hcall, hcalls⟩ := Program.bind_eq_some hrun
    obtain ⟨hfree₁, sets, hsets, hmem⟩ := ih hcalls
    have hfree₀ := HandleCall.free_of_run hcall hfree₁
    have hfirst : h₁.setopts = (call.options width h.transfer.ctrl.outHeaders).reverse ++ h.setopts := by
      have heq : h₁.setopts = (call.setopts width h.transfer).reverse ++ h.setopts :=
        congrArg (fun r : Handle × Option Returned => r.1.setopts) hcall.symm
      rw [heq, HandleCall.setopts, if_neg (by rw [hfree₀]; decide)]
    refine ⟨hfree₀, sets ++ (call.options width h.transfer.ctrl.outHeaders).reverse, ?_, ?_⟩
    · rw [hsets, hfirst, List.append_assoc]
    · intro option
      rw [List.map_append, List.mem_append, hmem, List.map_reverse, List.mem_reverse,
        call.fst_options]
      simp [or_comm]

/-- The options that every request sets. -/
def always : List CURLoption :=
  [.url, .followLocation, .customRequest, .inFileSizeLarge, .httpHeader, .dnsServers, .interface,
    .writeFunction]

/-- The options that `setOptionInt` sets. -/
def intNames : List CURLoption :=
  [.tcpKeepIntvl, .tcpKeepIdle, .expect100TimeoutMs, .maxConnects, .maxRedirs]

/-- The options for the kind of a request, which libcurl does not keep apart: for one,
`CURLOPT_HTTPGET` takes back the other two. -/
def kindNames : List CURLoption := [.upload, .noBody, .httpGet]

/-- The options for proxies. -/
def proxyOptions : List CURLoption := [.proxyType, .proxy, .preProxy]

/-- The option is a cell of its own, which takes what the native methods set it to.  Of those
that `setOptionInt` sets libcurl refuses some numbers, and `CURLMOPT_MAXCONNECTS` altogether. -/
def CURLoption.apart (option : CURLoption) : Bool :=
  !(kindNames.contains option || intNames.contains option)

theorem CURLoption.not_apart (h : option ∈ kindNames ∨ option ∈ intNames) :
    option.apart = false := by
  rcases h with h | h
  · simp [apart, h]
  · simp [apart, h]

/-- Nothing about a proxy is set by `nativeCreate`. -/
theorem lookup_created (longMax : Int) (flags : BitVec 32) (h : option ∈ proxyOptions) :
    (nativeCreateOptions longMax flags).reverse.lookup option = none := by
  rw [List.lookup_eq_none_iff]
  unfold nativeCreateOptions
  revert option
  cases hasFlag flags .debug <;> cases hasFlag flags .rawResponse <;> simp [proxyOptions]

theorem mem_intNames (width : Nat) (value n : Int) :
    ∀ option ∈ (intOptions width value n).map Prod.fst, option ∈ intNames := by
  unfold intOptions
  split <;> simp [intNames]

theorem PassedOn.mem_proxyOptions (o : PassedOn) :
    ∀ option ∈ o.proxyOptions.map Prod.fst, option ∈ Chttpc.proxyOptions := by
  unfold proxyOptions
  split
  · split <;> simp [Chttpc.proxyOptions]
  · simp [Chttpc.proxyOptions]

theorem PassedOn.kindOption_mem (o : PassedOn) (c : Configure) :
    (o.kindOption c).1 ∈ kindNames := by
  unfold kindOption
  split
  · decide
  · split <;> decide

namespace HandleCall

theorem named_configure {c : Configure} (hurl : c.urlBufferOk = true) (o : PassedOn) :
    (HandleCall.configure c o).named = (o.options c []).map Prod.fst := by
  rw [named, options, if_pos hurl]

/-- `nativeConfigure` sets what every request sets, something about the proxy, the kind of the
request, and `CURLOPT_READFUNCTION` for an upload. -/
theorem mem_named_configure {c : Configure} (hurl : c.urlBufferOk = true) (o : PassedOn) :
    option ∈ (HandleCall.configure c o).named ↔
      option ∈ always ∨ option ∈ o.proxyOptions.map Prod.fst ∨ option = (o.kindOption c).1 ∨
        c.doOutput = true ∧ option = .readFunction := by
  rw [named_configure hurl, PassedOn.options]
  cases c.doOutput <;> simp [always] <;> tauto

theorem readFunction_mem_named {c : Configure} (hurl : c.urlBufferOk = true) (o : PassedOn) :
    .readFunction ∈ (HandleCall.configure c o).named ↔ c.doOutput = true := by
  rw [mem_named_configure hurl]
  constructor
  · rintro (h | h | h | ⟨h, -⟩)
    · exact absurd h (by decide)
    · exact absurd (o.mem_proxyOptions _ h) (by decide)
    · exact absurd (h ▸ o.kindOption_mem c) (by decide)
    · exact h
  · exact fun h => Or.inr (Or.inr (Or.inr ⟨h, rfl⟩))

/-- What a call sets, of the options that are cells of their own, is set by every request, or it
is about a proxy, or it is the function that libcurl reads with. -/
theorem named_cases {call : HandleCall} (h : option ∈ call.named) (hapart : option.apart = true) :
    option ∈ always ∨ option ∈ proxyOptions ∨ option = .readFunction := by
  cases call with
  | configure c o =>
    cases hurl : c.urlBufferOk with
    | false =>
      rw [named, options, if_neg (by rw [hurl]; decide)] at h
      cases h
    | true =>
      rcases (mem_named_configure hurl o).mp h with h | h | h | ⟨-, h⟩
      · exact .inl h
      · exact .inr (.inl (o.mem_proxyOptions option h))
      · rw [CURLoption.not_apart (.inl (h ▸ o.kindOption_mem c))] at hapart
        cases hapart
      · exact .inr (.inr h)
  | other call hcall =>
    cases call with
    | closeOutput c => exact .inr (.inr (List.mem_singleton.mp h))
    | setOptionInt value n =>
      rw [CURLoption.not_apart (.inr (mem_intNames _ _ _ _ h))] at hapart
      cases hapart
    | _ => cases h

end HandleCall

theorem lookup_eq_none_iff {sets : List Setopt} :
    sets.lookup option = none ↔ option ∉ sets.map Prod.fst := by
  rw [List.lookup_eq_none_iff, List.mem_map]
  constructor
  · rintro h ⟨set, hset, rfl⟩
    simpa using h set hset
  · intro h set hset
    rw [bne_iff_ne]
    exact fun heq => h ⟨set, hset, heq.symm⟩

/-- What has been set anew does not depend on what there was. -/
theorem lookup_append_eq_iff {sets old fresh : List Setopt} :
    (sets ++ old).lookup option = (sets ++ fresh).lookup option ↔
      option ∈ sets.map Prod.fst ∨ old.lookup option = fresh.lookup option := by
  rw [List.lookup_append, List.lookup_append]
  cases hsets : sets.lookup option with
  | none => simp [lookup_eq_none_iff.mp hsets]
  | some value =>
    have hmem : option ∈ sets.map Prod.fst := by
      by_contra hnot
      rw [lookup_eq_none_iff.mpr hnot] at hsets
      cases hsets
    simp [hmem]

/-- `CURLOPT_READFUNCTION` becomes `read_callback`, and `eof_callback`. -/
inductive BodyEvent
  | upload | closeOutput
  deriving DecidableEq, Repr

def HandleCall.bodyEvent : HandleCall → Option BodyEvent
  | .configure c _ => if c.urlBufferOk && c.doOutput then some .upload else none
  | .other (.closeOutput _) _ => some .closeOutput
  | .other .. => none

/-- The output has been closed since the last upload was configured. -/
def ClosedSince (calls : List HandleCall) : Prop :=
  Runs.Since .closeOutput .upload (calls.filterMap HandleCall.bodyEvent)

/-- What `CURLOPT_READFUNCTION` is behind these events. -/
structure ReadSet (h : Handle) (events : List BodyEvent) : Prop where
  closed : Runs.Since .closeOutput .upload events →
    h.option .readFunction = some (.read .eofCallback)
  opened : ¬ Runs.Since .closeOutput .upload events →
    h.option .readFunction = some (.read .readCallback)

theorem readSet_fresh (longMax : Int) (flags : BitVec 32) (platform : Platform)
    (rodata : Nat → UInt8) : ReadSet (.fresh longMax flags platform rodata) [] where
  closed := fun h => (Runs.not_since_nil _ _ h).elim
  opened := by
    intro _
    unfold Handle.option Handle.fresh nativeCreateOptions
    cases hasFlag flags .debug <;> cases hasFlag flags .rawResponse <;> rfl

/-- A call that has the lock. -/
theorem HandleCall.setopts_run (call : HandleCall) {h : Handle}
    (hfree : h.transfer.ctrl.busy = false) :
    (call.run width h).1.setopts =
      (call.options width h.transfer.ctrl.outHeaders).reverse ++ h.setopts := by
  show (call.setopts width h.transfer).reverse ++ h.setopts = _
  rw [HandleCall.setopts, if_neg (by rw [hfree]; decide)]

/-- An option that a call does not set. -/
theorem HandleCall.option_run_of_notMem (call : HandleCall) (width : Nat) {h : Handle}
    (hfree : h.transfer.ctrl.busy = false) (hnot : option ∉ call.named) :
    (call.run width h).1.option option = h.option option := by
  have hnone : (call.options width h.transfer.ctrl.outHeaders).reverse.lookup option = none := by
    rwa [lookup_eq_none_iff, List.map_reverse, List.mem_reverse, call.fst_options]
  rw [Handle.option, call.setopts_run hfree, List.lookup_append, hnone, Option.none_or]
  rfl

/-- What a call does to `CURLOPT_READFUNCTION`. -/
theorem ReadSet.run {h : Handle} {events : List BodyEvent} (hread : ReadSet h events)
    (width : Nat) (call : HandleCall) (hfree : h.transfer.ctrl.busy = false) :
    ReadSet (call.run width h).1 (events ++ call.bodyEvent.toList) := by
  have hquiet : .readFunction ∉ call.named → call.bodyEvent = none →
      ReadSet (call.run width h).1 (events ++ call.bodyEvent.toList) := by
    intro hnot hevent
    rw [hevent, Option.toList_none, List.append_nil]
    have hsame := call.option_run_of_notMem width hfree hnot
    exact ⟨fun hclosed => hsame.trans (hread.closed hclosed),
      fun hopened => hsame.trans (hread.opened hopened)⟩
  cases call with
  | configure c o =>
    cases hurl : c.urlBufferOk with
    | false =>
      refine hquiet ?_ (by simp [HandleCall.bodyEvent, hurl])
      rw [HandleCall.named, HandleCall.options, if_neg (by rw [hurl]; decide)]
      exact List.not_mem_nil
    | true =>
      cases houtput : c.doOutput with
      | false =>
        refine hquiet ?_ (by simp [HandleCall.bodyEvent, houtput])
        rw [HandleCall.readFunction_mem_named hurl, houtput]
        decide
      | true =>
        have hevent : (HandleCall.configure c o).bodyEvent = some .upload := by
          simp [HandleCall.bodyEvent, hurl, houtput]
        rw [hevent]
        refine ⟨fun hclosed => (Runs.not_since_concat (by decide) events hclosed).elim, fun _ => ?_⟩
        rw [Handle.option, HandleCall.setopts_run _ hfree, HandleCall.options, if_pos hurl]
        exact o.lookup_readFunction houtput _ _
  | other call hcall =>
    cases call with
    | closeOutput c =>
      refine ⟨fun _ => ?_, fun hopened => (hopened (Runs.since_concat_self _ _ events)).elim⟩
      rw [Handle.option, HandleCall.setopts_run _ hfree]
      rfl
    | setOptionInt value n =>
      exact hquiet (fun h => absurd (mem_intNames _ _ _ _ h) (by decide)) rfl
    | nativeConfigure c => cases hcall
    | _ => exact hquiet List.not_mem_nil rfl

theorem readSet_of_run {calls : List HandleCall} {h h' : Handle} {events : List BodyEvent}
    (hread : ReadSet h events) (hrun : runHandle width calls h = (h', some ()))
    (hfree : h'.transfer.ctrl.busy = false) :
    ReadSet h' (events ++ calls.filterMap HandleCall.bodyEvent) := by
  induction calls generalizing h events with
  | nil =>
    cases hrun
    rwa [List.filterMap_nil, List.append_nil]
  | cons call calls ih =>
    obtain ⟨h₁, returned, hcall, hcalls⟩ := Program.bind_eq_some hrun
    have hfree₁ := (setopts_of_run hcalls hfree).1
    have hnext := hread.run width call (HandleCall.free_of_run hcall hfree₁)
    rw [hcall] at hnext
    have hrest := ih hnext hcalls
    rw [List.append_assoc] at hrest
    cases hevent : call.bodyEvent with
    | none =>
      rw [List.filterMap_cons_none hevent]
      rwa [hevent] at hrest
    | some event =>
      rw [List.filterMap_cons_some hevent]
      rwa [hevent] at hrest

/-- The handle, if no option had been set since `nativeCreate`. -/
def Handle.unused (longMax : Int) (flags : BitVec 32) (h : Handle) : Handle :=
  ⟨h.transfer, (nativeCreateOptions longMax flags).reverse⟩

variable {longMax : Int} {flags : BitVec 32} {platform : Platform} {rodata : Nat → UInt8}
  {before : List HandleCall} {h : Handle}

/-- Whether an option of the next call is what it would be on an unused handle. -/
theorem option_run_unused_iff (call : HandleCall) (hfree : h.transfer.ctrl.busy = false) :
    (call.run width h).1.option option =
        (call.run width (h.unused longMax flags)).1.option option ↔
      option ∈ call.named ∨ h.option option = (h.unused longMax flags).option option := by
  have hunused : (h.unused longMax flags).transfer.ctrl.busy = false := hfree
  have hnamed : option ∈
      ((call.options width h.transfer.ctrl.outHeaders).reverse).map Prod.fst ↔
      option ∈ call.named := by
    rw [List.map_reverse, List.mem_reverse, call.fst_options]
  rw [Handle.option, Handle.option, call.setopts_run hfree, call.setopts_run hunused, ← hnamed]
  exact lookup_append_eq_iff

/-- An option for proxies is as on an unused handle exactly if no call has set it. -/
theorem option_of_proxy (hrun : runHandle width before (.fresh longMax flags platform rodata) =
    (h, some ())) (hfree : h.transfer.ctrl.busy = false) (hoption : option ∈ proxyOptions) :
    h.option option = (h.unused longMax flags).option option ↔
      ∀ earlier ∈ before, option ∉ earlier.named := by
  obtain ⟨-, sets, hsets, hmem⟩ := setopts_of_run hrun hfree
  have hcreated : (h.unused longMax flags).option option = none :=
    lookup_created longMax flags hoption
  have hsame : h.option option = sets.lookup option := by
    rw [Handle.option, hsets, List.lookup_append]
    exact (congrArg _ (lookup_created longMax flags hoption)).trans Option.or_none
  rw [hcreated, hsame, lookup_eq_none_iff, hmem]
  simp only [not_exists, not_and]

/-- An option that no call sets stays as `nativeCreate` has set it. -/
theorem option_of_notMem (hrun : runHandle width before (.fresh longMax flags platform rodata) =
    (h, some ())) (hfree : h.transfer.ctrl.busy = false)
    (hnot : ∀ earlier ∈ before, option ∉ earlier.named) :
    h.option option = (h.unused longMax flags).option option := by
  obtain ⟨-, sets, hsets, hmem⟩ := setopts_of_run hrun hfree
  have hnone : sets.lookup option = none := by
    rw [lookup_eq_none_iff, hmem]
    rintro ⟨earlier, hearlier, hnamed⟩
    exact hnot earlier hearlier hnamed
  rw [Handle.option, hsets, List.lookup_append, hnone, Option.none_or]
  rfl

/-- An option that is a cell of its own, besides `CURLOPT_READFUNCTION`. -/
theorem option_run_eq_iff
    (hrun : runHandle width before (.fresh longMax flags platform rodata) = (h, some ()))
    (hfree : h.transfer.ctrl.busy = false) {c : Configure} (hurl : c.urlBufferOk = true)
    (o : PassedOn) (hapart : option.apart = true) (hne : option ≠ .readFunction) :
    let call := HandleCall.configure c o
    (call.run width h).1.option option =
        (call.run width (h.unused longMax flags)).1.option option ↔
      option ∈ call.named ∨ ∀ earlier ∈ before, option ∉ earlier.named := by
  intro call
  refine (option_run_unused_iff call hfree).trans (or_congr_right' fun hnot => ?_)
  constructor
  · intro hsame earlier hearlier hnamed
    rcases HandleCall.named_cases hnamed hapart with h | h | h
    · exact hnot ((HandleCall.mem_named_configure hurl o).mpr (Or.inl h))
    · exact (option_of_proxy hrun hfree h).mp hsame earlier hearlier hnamed
    · exact hne h
  · exact option_of_notMem hrun hfree

/-- `CURLOPT_READFUNCTION`. -/
theorem readFunction_run_eq_iff
    (hrun : runHandle width before (.fresh longMax flags platform rodata) = (h, some ()))
    (hfree : h.transfer.ctrl.busy = false) {c : Configure} (hurl : c.urlBufferOk = true)
    (o : PassedOn) :
    let call := HandleCall.configure c o
    (call.run width h).1.option .readFunction =
        (call.run width (h.unused longMax flags)).1.option .readFunction ↔
      c.doOutput = true ∨ ¬ ClosedSince before := by
  intro call
  refine (option_run_unused_iff call hfree).trans (or_congr ?_ ?_)
  · exact HandleCall.readFunction_mem_named hurl o
  · have hread : ReadSet h ([] ++ before.filterMap HandleCall.bodyEvent) :=
      readSet_of_run (readSet_fresh longMax flags platform rodata) hrun hfree
    have hunused : (h.unused longMax flags).option .readFunction = some (.read .readCallback) :=
      (readSet_fresh longMax flags platform rodata).opened (Runs.not_since_nil _ _)
    rw [hunused]
    constructor
    · intro hsame hclosed
      rw [hread.closed hclosed] at hsame
      cases hsame
    · exact hread.opened

/-- **Which options a request finds left over**, of those that libcurl keeps apart.  Behind any
calls that leave the lock free, an option under which `nativeConfigure` performs is the one that
it would have on a handle with the same request headers that has never been used, exactly if the
call sets it or no earlier call has set it.  `CURLOPT_READFUNCTION` is, exactly if the call is
for an upload or the output has not been closed since the last one. -/
theorem option_isolated_iff
    (hrun : runHandle width before (.fresh longMax flags platform rodata) = (h, some ()))
    (hfree : h.transfer.ctrl.busy = false) {c : Configure} (hurl : c.urlBufferOk = true)
    (o : PassedOn) :
    let call := HandleCall.configure c o
    let last := (call.run width h).1
    let alone := (call.run width (h.unused longMax flags)).1
    (∀ option ≠ .readFunction, option.apart = true →
      (last.option option = alone.option option ↔
        option ∈ call.named ∨ ∀ earlier ∈ before, option ∉ earlier.named)) ∧
    (last.option .readFunction = alone.option .readFunction ↔
      c.doOutput = true ∨ ¬ ClosedSince before) :=
  ⟨fun _ hne hapart => option_run_eq_iff hrun hfree hurl o hapart hne,
    readFunction_run_eq_iff hrun hfree hurl o⟩

end LeftOver

/-- A request, during which the thread is interrupted. -/
def requestOnce (doOutput : Bool) : Configure where
  fixedLength := 0
  url := []
  urlLength := 0
  readTimeout := 0
  connTimeout := 0
  followRedirects := false
  doInput := true
  doOutput
  response := []
  urlBufferOk := true
  interrupted := true
  perform := ⟨[], none⟩
  messages := []
  loop := ⟨⟨0, 0⟩, []⟩
  effectiveUrl := none
  newArrayOk := true

/-- A request without a proxy. -/
def passedOnce : PassedOn := ⟨[], none, none, none, 0, 0⟩

/-- The same through a proxy that is spoken to over TLS. -/
def passedTls : PassedOn := { passedOnce with proxy := some (ascii "proxy:443"), proxyType := 3 }

/-- The end of an upload, while the thread is interrupted. -/
def closeOnce : Close :=
  ⟨⟨[], some .ok⟩, ⟨⟨0, 0⟩, [⟨true, ⟨[], none⟩, [], false, -1, none, ⟨0, 0⟩⟩]⟩⟩

/-- An upload with its end, and `reset`. -/
def uploadOnce : List HandleCall :=
  [.configure (requestOnce true) passedTls, .other (.closeOutput closeOnce)
    (Call.isConfigure_closeOutput closeOnce), .other .reset Call.isConfigure_reset]

/-- Behind an upload, the proxy before the proxy and the function that libcurl reads with are
left over for a request without either, and the proxy itself is not. -/
theorem option_isolated_iff_uploadOnce :
    let h := (runHandle 32 uploadOnce (.fresh 0 0 latinPlatform fun _ => 0)).1
    let call := HandleCall.configure (requestOnce false) passedOnce
    let last := (call.run 32 h).1
    let alone := (call.run 32 (h.unused 0 0)).1
    last.option .preProxy ≠ alone.option .preProxy ∧
      last.option .readFunction ≠ alone.option .readFunction ∧
      last.option .proxy = alone.option .proxy := by
  intro h call last alone
  have hrun : runHandle 32 uploadOnce (.fresh 0 0 latinPlatform fun _ => 0) = (h, some ()) := rfl
  have hurl : (requestOnce false).urlBufferOk = true := rfl
  obtain ⟨hoptions, hread⟩ := option_isolated_iff hrun rfl hurl passedOnce
  refine ⟨fun hsame => ?_, fun hsame => ?_, ?_⟩
  · rcases (hoptions .preProxy (by decide) rfl).mp hsame with hnamed | hnone
    · exact absurd hnamed (by decide)
    · exact absurd (by decide) (hnone _ List.mem_cons_self)
  · rcases hread.mp hsame with houtput | hnot
    · cases houtput
    · have hclosed : ClosedSince uploadOnce :=
        Runs.since_concat_self BodyEvent.closeOutput .upload [.upload]
      exact hnot hclosed
  · exact (hoptions .proxy (by decide) rfl).mpr (.inl (by decide))

end Chttpc
