import Chttpc.HandleOptions

/-!
# The proxies of a connection

`CurlConnection` chooses the method and the proxy of a request and hands them to
`nativeConfigure`, each by its number and by its text.  For a method the two say the same
(`requestMethod_passedOn`).  For a proxy the numbers are those of `CurlProxy`, and each number
sets other options: which proxy of an earlier request is left over depends on the kinds of the
proxies alone (`proxies_isolated_iff`).
-/

namespace Chttpc

/-- `java.net.Proxy.Type`. -/
inductive ProxyKind
  | direct | http | socks
  deriving DecidableEq, Repr

/-- A proxy, with the text of its address: a `CurlProxy`, or one of another class. -/
inductive Proxy
  | curlProxy (proxyType : Int) (address : List UInt8)
  | other (kind : ProxyKind) (address : List UInt8)

def Proxy.address : Proxy → List UInt8
  | .curlProxy _ address | .other _ address => address

namespace CurlProxy

protected def none : Int := 0
def httpPlain : Int := 1
def httpConnect : Int := 2
def httpsPlain : Int := 3
def httpsConnect : Int := 4
def socks4 : Int := 5
def socks4a : Int := 6
def socks5 : Int := 7
def socks5h : Int := 8

def getType : Proxy → Int
  | .curlProxy proxyType _ => proxyType
  | .other .http _ => httpConnect
  | .other .socks _ => socks5
  | .other .direct _ => CurlProxy.none

end CurlProxy

/-- A string of the Java code. -/
def javaString (text : String) : JString := (ascii text).map (·.toUInt16)

/-- The fields of a connection that only libcurl reads in the end. -/
structure Choices where
  /-- The field `method`, unless it is `REQ_METHOD_DEFAULT`. -/
  method : Option JString
  proxy : Option Proxy

namespace Choices
variable (choices : Choices) (settings : Settings)

def getRequestMethod : JString :=
  match choices.method with
  | some method => method
  | none =>
      javaString (if settings.doOutput then "POST" else if settings.doInput then "GET" else "HEAD")

def getRequestType : Int :=
  let method := choices.getRequestMethod settings
  if method = javaString "GET" then 0
  else if method = javaString "POST" then 1
  else if method = javaString "PUT" then 2
  else if method = javaString "HEAD" then 3
  else 4

def getProxyType : Int := (choices.proxy.map CurlProxy.getType).getD CurlProxy.none

def usingProxy : Bool := choices.getProxyType != CurlProxy.none

def getProxyAddress : Option (List UInt8) :=
  if choices.usingProxy then choices.proxy.map Proxy.address else none

/-- The arguments of `curl.configure` that are passed on. -/
def passedOn (dns : Option JString) (ifName : Option InterfaceName) : PassedOn where
  method := choices.getRequestMethod settings
  proxy := choices.getProxyAddress
  dns
  ifName
  proxyType := choices.getProxyType
  reqType := choices.getRequestType settings

theorem getRequestType_cases :
    (choices.getRequestMethod settings = javaString "GET" ∧ choices.getRequestType settings = 0) ∨
    (choices.getRequestMethod settings = javaString "POST" ∧ choices.getRequestType settings = 1) ∨
    (choices.getRequestMethod settings = javaString "PUT" ∧ choices.getRequestType settings = 2) ∨
    (choices.getRequestMethod settings = javaString "HEAD" ∧ choices.getRequestType settings = 3) ∨
    choices.getRequestType settings = 4 := by
  unfold getRequestType
  grind

/-- **A method that is passed on by its number** is the one that is passed on by its name. -/
theorem requestMethod_passedOn (dns : Option JString) (ifName : Option InterfaceName) :
    (choices.passedOn settings dns ifName).requestMethod =
      cString (narrow (choices.getRequestMethod settings)) := by
  have hmethod : (choices.passedOn settings dns ifName).method =
      choices.getRequestMethod settings := rfl
  have htype : (choices.passedOn settings dns ifName).reqType =
      choices.getRequestType settings := rfl
  rw [PassedOn.requestMethod, hmethod, htype]
  rcases choices.getRequestType_cases settings with
    ⟨h, hn⟩ | ⟨h, hn⟩ | ⟨h, hn⟩ | ⟨h, hn⟩ | hn
  · rw [h, hn]
    rfl
  · rw [h, hn]
    rfl
  · rw [h, hn]
    rfl
  · rw [h, hn]
    rfl
  · rw [hn]
    rfl

theorem getProxyAddress_cases :
    (choices.getProxyAddress = none ∧ choices.getProxyType = CurlProxy.none) ∨
      ∃ address, choices.getProxyAddress = some address ∧
        choices.getProxyType ≠ CurlProxy.none := by
  unfold getProxyAddress usingProxy
  by_cases htype : choices.getProxyType = CurlProxy.none
  · exact Or.inl ⟨by simp [htype], htype⟩
  · right
    cases hproxy : choices.proxy with
    | none => exact absurd (by simp [getProxyType, hproxy]) htype
    | some proxy => exact ⟨proxy.address, by simp [htype], htype⟩

/-- Which options of the proxies a request sets. -/
theorem fst_proxyOptions (dns : Option JString) (ifName : Option InterfaceName) :
    (choices.passedOn settings dns ifName).proxyOptions.map Prod.fst =
      if choices.getProxyType ∈ [CurlProxy.httpConnect, CurlProxy.httpsConnect] then
        [.proxyType, .proxy]
      else if choices.getProxyType = CurlProxy.httpsPlain then [.preProxy]
      else if choices.getProxyType ∈ [CurlProxy.none, CurlProxy.httpPlain] then [.proxy]
      else [] := by
  have hproxy : (choices.passedOn settings dns ifName).proxy = choices.getProxyAddress := rfl
  have htype : (choices.passedOn settings dns ifName).proxyType = choices.getProxyType := rfl
  rw [PassedOn.proxyOptions, hproxy, htype]
  rcases choices.getProxyAddress_cases with ⟨haddress, hnone⟩ | ⟨address, haddress, hne⟩
  · rw [haddress, hnone]
    rfl
  · rw [haddress]
    dsimp only
    generalize choices.getProxyType = proxyType at hne
    split
    · rfl
    · rfl
    · rfl
    · rfl
    · rename_i h2 h1 h3 h4
      have hconnect : proxyType ∉ [CurlProxy.httpConnect, CurlProxy.httpsConnect] := by
        rw [List.mem_pair]
        exact fun h => h.elim h2 h4
      have hplain : proxyType ∉ [CurlProxy.none, CurlProxy.httpPlain] := by
        rw [List.mem_pair]
        exact fun h => h.elim hne h1
      have hpre : proxyType ≠ CurlProxy.httpsPlain := h3
      rw [if_neg hconnect, if_neg hpre, if_neg hplain]
      rfl

end Choices

/-- A call of `curl.configure` by the connection, or a call on the handle. -/
inductive Request
  | connect (sdkInt : Nat) (settings : Settings) (choices : Choices) (dns : Option JString)
      (ifName : Option InterfaceName) (c : Configure)
  | other (call : Call) (h : call.isConfigure = false)

def Request.toCall : Request → HandleCall
  | .connect sdkInt settings choices dns ifName c =>
      .configure (settings.toConfigure sdkInt c) (choices.passedOn settings dns ifName)
  | .other call h => .other call h

section Proxies
variable {width : Nat} {longMax : Int} {flags : BitVec 32} {platform : Platform}
  {rodata : Nat → UInt8} {before : List Request} {h : Handle}

/-- The kinds of proxies for which a request sets an option. -/
def proxyKinds : CURLoption → List Int
  | .proxyType => [CurlProxy.httpConnect, CurlProxy.httpsConnect]
  | .proxy =>
      [CurlProxy.none, CurlProxy.httpPlain, CurlProxy.httpConnect, CurlProxy.httpsConnect]
  | .preProxy => [CurlProxy.httpsPlain]
  | _ => []

theorem mem_named_connect {option : CURLoption} (hoption : option ∈ proxyOptions) (sdkInt : Nat)
    (settings : Settings) (choices : Choices) (dns : Option JString)
    (ifName : Option InterfaceName) {c : Configure} (hurl : c.urlBufferOk = true) :
    option ∈ (Request.connect sdkInt settings choices dns ifName c).toCall.named ↔
      choices.getProxyType ∈ proxyKinds option := by
  have hurl' : (settings.toConfigure sdkInt c).urlBufferOk = true := hurl
  have halways : option ∉ always ∧ option ≠ .readFunction := by
    revert option
    decide
  have hkind : option ≠ ((choices.passedOn settings dns ifName).kindOption
      (settings.toConfigure sdkInt c)).1 := by
    rintro rfl
    have hdisjoint : ∀ option ∈ kindNames, option ∉ proxyOptions := by decide
    exact hdisjoint _ (PassedOn.kindOption_mem _ _) hoption
  rw [Request.toCall, HandleCall.mem_named_configure hurl', choices.fst_proxyOptions]
  simp only [halways.1, halways.2, hkind, false_or, and_false, or_false]
  generalize choices.getProxyType = proxyType
  have hcases : option = .proxyType ∨ option = .proxy ∨ option = .preProxy := by
    simpa [proxyOptions] using hoption
  simp only [CurlProxy.httpConnect, CurlProxy.httpsConnect, CurlProxy.httpsPlain,
    CurlProxy.none, CurlProxy.httpPlain]
  rcases hcases with rfl | rfl | rfl
  · simp only [proxyKinds, CurlProxy.httpConnect, CurlProxy.httpsConnect]
    grind
  · simp only [proxyKinds, CurlProxy.httpConnect, CurlProxy.httpsConnect, CurlProxy.none,
      CurlProxy.httpPlain]
    grind
  · simp only [proxyKinds, CurlProxy.httpsPlain]
    grind

theorem notMem_named_other {option : CURLoption} (hoption : option ∈ proxyOptions) (call : Call)
    (hcall : call.isConfigure = false) : option ∉ (HandleCall.other call hcall).named := by
  cases call with
  | nativeConfigure c => cases hcall
  | closeOutput c =>
    intro h
    rw [List.mem_singleton.mp h] at hoption
    exact absurd hoption (by decide)
  | setOptionInt value n =>
    intro h
    have hapart : ∀ option ∈ intNames, option ∉ proxyOptions := by decide
    exact hapart option (mem_intNames _ _ _ _ h) hoption
  | _ => exact List.not_mem_nil

/-- **When a request finds no proxy of an earlier one left over**, whatever has happened on the
handle: exactly if each of the options for proxies that the proxy of an earlier request has set
is also set for its own.  After a `CurlProxy.HTTPS_PLAIN` the next proxy has to be one again;
after a proxy of `java.net` with the type `HTTP`, one with the type `SOCKS` sets nothing and
uses the old one. -/
theorem proxies_isolated_iff
    (hrun : runHandle width (before.map Request.toCall) (.fresh longMax flags platform rodata) =
      (h, some ())) (hfree : h.transfer.ctrl.busy = false) (sdkInt : Nat) (settings : Settings)
    (choices : Choices) (dns : Option JString) (ifName : Option InterfaceName) {c : Configure}
    (hurl : c.urlBufferOk = true) :
    let call := (Request.connect sdkInt settings choices dns ifName c).toCall
    (∀ option ∈ proxyOptions, (call.run width h).1.option option =
        (call.run width (h.unused longMax flags)).1.option option) ↔
      ∀ sdkInt' settings' earlier dns' ifName' c',
        .connect sdkInt' settings' earlier dns' ifName' c' ∈ before → c'.urlBufferOk = true →
          ∀ option ∈ proxyOptions, earlier.getProxyType ∈ proxyKinds option →
            choices.getProxyType ∈ proxyKinds option := by
  intro call
  have hurl' : (settings.toConfigure sdkInt c).urlBufferOk = true := hurl
  have hiff : ∀ option ∈ proxyOptions, (call.run width h).1.option option =
      (call.run width (h.unused longMax flags)).1.option option ↔
        option ∈ call.named ∨ ∀ earlier ∈ before.map Request.toCall, option ∉ earlier.named := by
    intro option hoption
    have hapart : ∀ option ∈ proxyOptions, option.apart = true ∧ option ≠ .readFunction := by
      decide
    obtain ⟨hapart, hne⟩ := hapart option hoption
    exact option_run_eq_iff hrun hfree hurl' (choices.passedOn settings dns ifName) hapart hne
  constructor
  · intro hsame sdkInt' settings' earlier dns' ifName' c' hmem hurl'' option hoption hset
    rcases (hiff option hoption).mp (hsame option hoption) with hnamed | hnot
    · exact (mem_named_connect hoption sdkInt settings choices dns ifName hurl).mp hnamed
    · exact absurd ((mem_named_connect hoption _ _ _ _ _ hurl'').mpr hset)
        (hnot _ (List.mem_map_of_mem hmem))
  · intro hcovers option hoption
    refine (hiff option hoption).mpr ?_
    by_contra hnot
    rw [not_or] at hnot
    obtain ⟨hown, hearlier⟩ := hnot
    push Not at hearlier
    obtain ⟨call', hcall', hnamed⟩ := hearlier
    obtain ⟨request, hrequest, rfl⟩ := List.mem_map.mp hcall'
    cases request with
    | connect sdkInt' settings' earlier dns' ifName' c' =>
      cases hurl'' : c'.urlBufferOk with
      | false =>
        have hnone : (settings'.toConfigure sdkInt' c').urlBufferOk = false := hurl''
        rw [Request.toCall, HandleCall.named, HandleCall.options, if_neg (by rw [hnone]; decide)]
          at hnamed
        cases hnamed
      | true =>
        refine hown ((mem_named_connect hoption sdkInt settings choices dns ifName hurl).mpr ?_)
        exact hcovers _ _ _ _ _ _ hrequest hurl'' option hoption
          ((mem_named_connect hoption _ _ _ _ _ hurl'').mp hnamed)
    | other other hother => exact notMem_named_other hoption other hother hnamed

end Proxies

/-- A request through a proxy that is spoken to over TLS, and `reset`. -/
def httpsPlainOnce : List Request :=
  [.connect 19 .default ⟨none, some (.curlProxy CurlProxy.httpsPlain (ascii "proxy:443"))⟩ none none
    (requestOnce false), .other .reset Call.isConfigure_reset]

/-- Then a request without a proxy still has it. -/
theorem proxies_isolated_iff_httpsPlainOnce :
    let h := (runHandle 32 (httpsPlainOnce.map Request.toCall)
      (.fresh 0 0 latinPlatform fun _ => 0)).1
    let call := (Request.connect 19 .default ⟨none, none⟩ none none (requestOnce false)).toCall
    ¬ ∀ option ∈ proxyOptions, (call.run 32 h).1.option option =
      (call.run 32 (h.unused 0 0)).1.option option := by
  intro h call hsame
  have hrun : runHandle 32 (httpsPlainOnce.map Request.toCall)
    (.fresh 0 0 latinPlatform fun _ => 0) = (h, some ()) := rfl
  have hurl : (requestOnce false).urlBufferOk = true := rfl
  have hcovers := (proxies_isolated_iff hrun rfl 19 .default ⟨none, none⟩ none none hurl).mp hsame
  have hkind := hcovers _ _ _ _ _ _ List.mem_cons_self rfl .preProxy (by decide) (by decide)
  exact absurd hkind (by decide)

end Chttpc
