import Chttpc.MutableUrl
import Chttpc.NativeCalls

/-!
# The URL after `CurlHttp.configure`

`nativeConfigure` hands the effective URL back in the array it was given, with a NUL
behind it if there is room, or in a longer array.  `updateUrl` takes the length from the
array it gets: up to the first NUL, or all of it.

Two things are not said by the array.  The native method returns it untouched if the URL
is the one that was asked for, without a NUL behind the text, and then whatever an
earlier URL has left there counts as part of this one.  It returns it untouched as well
when the transfer has completed, without asking for the effective URL.
-/

namespace Chttpc
open Program

/-- `CurlHttp.updateUrl`.  The native method returns the array it is given or a longer one,
so the lengths tell whether it is the same. -/
def MutableUrl.updateUrl (newUrl : JString) (url : MutableUrl) : MutableUrl :=
  if newUrl.length = url.buffer.length then
    -- the length of the array, if there is no NUL in it
    ⟨newUrl, newUrl.findIdx (· == 0)⟩
  else ⟨newUrl, newUrl.length⟩

/-- `CurlConnection.setUrlString`, if the connection is not connected.  The array keeps
what lies behind the new text. -/
def MutableUrl.setUrlString (urlString : JString) (url : MutableUrl) :
    MutableUrl × Option UrlException :=
  { url with length := 0 }.appendString urlString 0 urlString.length

/-- What `CurlHttp.configure` throws. -/
inductive ConfigureThrown
  | indexOutOfBounds
  | native (e : Throwable)
  deriving DecidableEq, Repr

/-- The arguments of the native method, with the fields of the URL. -/
def Configure.withUrl (c : Configure) (url : MutableUrl) : Configure :=
  { c with url := url.buffer, urlLength := url.length.toNat }

namespace Transfer

/-- `CurlHttp.configure`: the URL it leaves, or an exception. -/
def configure (c : Configure) (url : MutableUrl) :
    Program Transfer (Except ConfigureThrown MutableUrl) := do
  if url.length < 0 ∨ url.buffer.length < url.length then pure (.error .indexOutOfBounds)
  else
    let returned ← nativeConfigure (c.withUrl url)
    let pending ← get (·.env.pending)
    match pending, returned with
    | some e, _ => pure (.error (.native e))
    | none, .chars (some newUrl) =>
        pure (.ok (if c.followRedirects then url.updateUrl newUrl else url))
    | none, _ => pure (.ok url)

/-- `connect`, up to the query of the effective URL: whether it gets there. -/
def reachesQuery (c : Configure) : Program Transfer Bool := do
  if c.interrupted then pure false
  else
    let (connectResult, running) ← curlMultiPerform c.perform
    if connectResult ≠ .ok then
      update (·.handleMultiError connectResult)
      pure false
    else
      let completed ← hasEnded running c.messages
      if completed then pure false
      else
        let ended ← curlPerform c.loop
        pure !ended

/-- The rest of `connect` hands over the effective URL, or the array untouched. -/
theorem connect_eq (c : Configure) (t : Transfer) :
    connect c t = match reachesQuery c t with
      | (t', none) => (t', none)
      | (t', some reached) =>
          if reached = true ∧ c.followRedirects = true then (t', c.effective t'.platform)
          else (t', some c.url) := by
  unfold connect reachesQuery
  by_cases hinterrupted : c.interrupted = true
  · rw [if_pos hinterrupted, if_pos hinterrupted]
    rfl
  rw [if_neg hinterrupted, if_neg hinterrupted]
  rcases hperform : curlMultiPerform c.perform t with ⟨t₁, _ | ⟨connectResult, running⟩⟩
  · rw [bind_none hperform, bind_none hperform]
  rw [bind_some hperform, bind_some hperform]
  dsimp only
  by_cases hfailed : connectResult ≠ .ok
  · rw [if_pos hfailed, if_pos hfailed]
    rfl
  rw [if_neg hfailed, if_neg hfailed]
  rcases hended : hasEnded running c.messages t₁ with ⟨t₂, _ | completed⟩
  · rw [bind_none hended, bind_none hended]
  rw [bind_some hended, bind_some hended]
  by_cases hcompleted : completed = true
  · rw [if_pos hcompleted, if_pos hcompleted]
    rfl
  rw [if_neg hcompleted, if_neg hcompleted]
  rcases hloop : curlPerform c.loop t₂ with ⟨t₃, _ | ended⟩
  · rw [bind_none hloop, bind_none hloop]
  rw [bind_some hloop, bind_some hloop]
  cases ended with
  | true => rfl
  | false =>
    rw [if_neg (by decide), Bool.not_false, pure_apply]
    dsimp only
    by_cases hfollow : c.followRedirects = true
    · rw [if_pos hfollow, if_pos ⟨rfl, hfollow⟩, bind_some (read_apply _ t₃)]
      cases c.effective t₃.platform <;> rfl
    · rw [if_neg hfollow, if_neg fun h => hfollow h.2]
      rfl

/-- The call gets to the query of the effective URL: neither is the thread interrupted
before the first `curl_multi_perform`, nor does this fail or complete the transfer, nor
does `curlPerform` return `true`. -/
def AsksForUrl (c : Configure) (t : Transfer) : Prop :=
  (reachesQuery c (c.attach (t.entered.modify (·.beginConfigure)))).2 = some true

/-- A native call that returns without an exception has had the lock, and its buffer for the
URL. -/
theorem passed_of_nativeConfigure {c : Configure} {t t' : Transfer} {returned : Returned}
    (hcall : nativeConfigure c t = (t', some returned)) (hquiet : t'.ctrl.env.pending = none) :
    t.ctrl.busy = false ∧ c.urlBufferOk = true := by
  have hfree : t.ctrl.busy = false := free_of_acquire hcall hquiet
  refine ⟨hfree, ?_⟩
  by_contra hbuffer
  rw [nativeConfigure, acquire_free hfree, bind_apply, configureBody_eq,
    if_pos (Bool.not_eq_true _ ▸ hbuffer)] at hcall
  cases hcall
  exact JNIEnv.pending_throw _ _ hquiet

/-- **A native call that returns without an exception** returns the array untouched, or
it has asked for the effective URL and returns that. -/
theorem nativeConfigure_returns {c : Configure} {t t' : Transfer} {returned : Returned}
    (hfollow : c.followRedirects = true) (hcall : nativeConfigure c t = (t', some returned))
    (hquiet : t'.ctrl.env.pending = none) :
    ∃ newUrl, returned = .chars (some newUrl) ∧
      (¬ AsksForUrl c t ∧ newUrl = c.url ∨
        AsksForUrl c t ∧ ∃ platform, c.effective platform = some newUrl) := by
  obtain ⟨hfree, hbuffer⟩ := passed_of_nativeConfigure hcall hquiet
  rw [nativeConfigure, acquire_free hfree] at hcall
  obtain ⟨t₁, newUrl, hbody, hrelease⟩ := bind_eq_some hcall
  cases hrelease
  refine ⟨newUrl, rfl, ?_⟩
  rw [configureBody_eq, if_neg (ne_false_of_eq_true hbuffer), connect_eq] at hbody
  unfold AsksForUrl
  rcases hquery : reachesQuery c (c.attach (t.entered.modify (·.beginConfigure))) with
    ⟨t₂, _ | reached⟩
  · rw [hquery] at hbody
    cases hbody
  rw [hquery] at hbody
  dsimp only at hbody ⊢
  cases reached with
  | false =>
    rw [if_neg (by simp)] at hbody
    cases hbody
    exact .inl ⟨by simp, rfl⟩
  | true =>
    rw [if_pos ⟨rfl, hfollow⟩] at hbody
    exact .inr ⟨rfl, t₂.platform, congrArg Prod.snd hbody⟩

end Transfer

/-! ## Reading the length off the array -/

/-- The characters in front of the first NUL. -/
def upToNul (chars : JString) : JString := chars.takeWhile (· != 0)

namespace MutableUrl
variable {url : MutableUrl} {newUrl : JString}

theorem upToNul_eq_take (chars : JString) : chars.take (chars.findIdx (· == 0)) = upToNul chars := by
  rw [upToNul, List.takeWhile_eq_take_findIdx_not]
  congr 2
  funext c
  rw [bne, Bool.not_not]

/-- An array of the same length is read up to its first NUL. -/
theorem toString_updateUrl_same (h : newUrl.length = url.buffer.length) :
    (url.updateUrl newUrl).toString = some (upToNul newUrl) := by
  have hle : newUrl.findIdx (· == 0) ≤ newUrl.length := List.findIdx_le_length
  rw [updateUrl, if_pos h, toString, if_pos ⟨Int.natCast_nonneg _, Int.ofNat_le.mpr hle⟩,
    Int.toNat_natCast, upToNul_eq_take]

/-- Another array is all text. -/
theorem toString_updateUrl_other (h : newUrl.length ≠ url.buffer.length) :
    (url.updateUrl newUrl).toString = some newUrl := by
  rw [updateUrl, if_neg h, toString, if_pos ⟨Int.natCast_nonneg _, Int.le_refl _⟩,
    Int.toNat_natCast, List.take_length]

end MutableUrl

theorem upToNul_append {text : JString} (h : 0 ∉ text) (rest : JString) :
    upToNul (text ++ rest) = text ++ upToNul rest := by
  refine List.takeWhile_append_of_pos fun c hc => ?_
  have hne : c ≠ 0 := fun he => h (he ▸ hc)
  simpa using hne

section Update
variable {c : Configure} {url : MutableUrl} {e : List UInt8} {platform : Platform}
  {newUrl : JString}

/-- **An effective URL that is another one arrives**, whatever its length. -/
theorem toString_effective (heffective : c.effectiveUrl = some e)
    (hascii : ∀ b ∈ e, b ≠ 0 ∧ b < 128) (hother : e ≠ cString (c.withUrl url).urlBuffer)
    (h : (c.withUrl url).effective platform = some newUrl) :
    (url.updateUrl newUrl).toString = some (e.map (·.toUInt16)) := by
  have hchars : e.map platform.jchar = e.map (·.toUInt16) :=
    jchar_ascii platform fun b hb => (hascii b hb).2
  have hnul : 0 ∉ e.map (·.toUInt16) := by
    intro hmem
    obtain ⟨b, hb, hzero⟩ := List.mem_map.mp hmem
    have hnat : b.toNat = 0 := (UInt8.toNat_toUInt16 b).symm.trans (congrArg UInt16.toNat hzero)
    exact (hascii b hb).1 (UInt8.toNat_inj.mp hnat)
  unfold Configure.effective at h
  rw [show (c.withUrl url).effectiveUrl = some e from heffective] at h
  dsimp only at h
  rw [if_neg hother, hchars] at h
  generalize e.map (·.toUInt16) = text at *
  change (if url.buffer.length < text.length then if c.newArrayOk then some text else none
    else if text.length < url.buffer.length then
      some (text ++ 0 :: url.buffer.drop (text.length + 1))
    else some text) = some newUrl at h
  by_cases hlonger : url.buffer.length < text.length
  · rw [if_pos hlonger] at h
    split at h
    · cases h
      exact MutableUrl.toString_updateUrl_other (by omega)
    · cases h
  rw [if_neg hlonger] at h
  by_cases hshorter : text.length < url.buffer.length
  · rw [if_pos hshorter] at h
    cases h
    have hlength : (text ++ 0 :: url.buffer.drop (text.length + 1)).length = url.buffer.length := by
      rw [List.length_append, List.length_cons, List.length_drop]
      omega
    rw [MutableUrl.toString_updateUrl_same hlength, upToNul_append hnul]
    exact congrArg some (List.append_nil _)
  · rw [if_neg hshorter] at h
    cases h
    have hall := upToNul_append hnul []
    rw [List.append_nil] at hall
    rw [MutableUrl.toString_updateUrl_same (by omega), hall]
    exact congrArg some (List.append_nil _)

/-- A call of `configure` that returns normally is a native call without an exception. -/
theorem nativeConfigure_of_configure {url' : MutableUrl} {t t' : Transfer}
    (hreturns : Transfer.configure c url t = (t', some (.ok url'))) :
    ∃ returned, Transfer.nativeConfigure (c.withUrl url) t = (t', some returned) ∧
      t'.ctrl.env.pending = none ∧
      ∀ newUrl, returned = .chars (some newUrl) →
        url' = if c.followRedirects then url.updateUrl newUrl else url := by
  unfold Transfer.configure at hreturns
  by_cases hrange : url.length < 0 ∨ url.buffer.length < url.length
  · rw [if_pos hrange] at hreturns
    cases hreturns
  rw [if_neg hrange] at hreturns
  obtain ⟨t₁, returned, hcall, hrest⟩ := bind_eq_some hreturns
  obtain ⟨t₂, pending, hget, hrest⟩ := bind_eq_some hrest
  obtain rfl : t₁ = t₂ := congrArg Prod.fst hget
  have hquiet : t₁.ctrl.env.pending = pending := Option.some.inj (congrArg Prod.snd hget)
  cases pending with
  | some e => cases hrest
  | none =>
    obtain rfl : t₁ = t' := by
      cases returned with
      | chars array => cases array <;> exact congrArg Prod.fst hrest
      | void | int n | string str | array elements => exact congrArg Prod.fst hrest
    refine ⟨returned, hcall, hquiet, ?_⟩
    rintro newUrl rfl
    cases hrest
    rfl

/-- **A call of `configure` that returns normally** has left the URL alone but for its
length, or it has asked for the effective URL. -/
theorem configure_returns {url' : MutableUrl} {t t' : Transfer} (hfollow : c.followRedirects = true)
    (hreturns : Transfer.configure c url t = (t', some (.ok url'))) :
    ∃ newUrl, url' = url.updateUrl newUrl ∧
      (¬ Transfer.AsksForUrl (c.withUrl url) t ∧ newUrl = url.buffer ∨
        Transfer.AsksForUrl (c.withUrl url) t ∧
          ∃ platform, (c.withUrl url).effective platform = some newUrl) := by
  obtain ⟨returned, hcall, hquiet, hurl⟩ := nativeConfigure_of_configure hreturns
  obtain ⟨newUrl, hreturned, hnew⟩ := Transfer.nativeConfigure_returns (c := c.withUrl url) hfollow
    hcall hquiet
  refine ⟨newUrl, ?_, hnew⟩
  rw [hurl newUrl hreturned, if_pos hfollow]

/-- The URL is the effective one if the transfer has been redirected, and the one it was
otherwise. -/
def FollowsRedirect (e : List UInt8) (url url' : MutableUrl) : Prop :=
  url'.toString =
    if url.toString = some (e.map (·.toUInt16)) then url.toString else some (e.map (·.toUInt16))

theorem followsRedirect_iff {url' : MutableUrl} :
    FollowsRedirect e url url' ↔ url'.toString = some (e.map (·.toUInt16)) := by
  unfold FollowsRedirect
  split
  · rename_i h
    rw [h]
  · rfl

/-- **The URL after `configure`**, following redirects, when it returns normally: it is the
effective URL `e`, or the URL that was asked for if that is `e`, exactly when the call has
got to ask for another URL than the one that was sent, or the array held `e` up to its
first NUL all along. -/
theorem follows_redirect_iff (c : Configure) (url url' : MutableUrl) (t t' : Transfer)
    (e : List UInt8) (hfollow : c.followRedirects = true) (heffective : c.effectiveUrl = some e)
    (hascii : ∀ b ∈ e, b ≠ 0 ∧ b < 128)
    (hreturns : Transfer.configure c url t = (t', some (.ok url'))) :
    FollowsRedirect e url url' ↔
      Transfer.AsksForUrl (c.withUrl url) t ∧ e ≠ cString (c.withUrl url).urlBuffer ∨
        upToNul url.buffer = e.map (·.toUInt16) := by
  obtain ⟨newUrl, rfl, hnew⟩ := configure_returns hfollow hreturns
  have hkept : newUrl = url.buffer →
      (FollowsRedirect e url (url.updateUrl newUrl) ↔ upToNul url.buffer = e.map (·.toUInt16)) := by
    rintro rfl
    rw [followsRedirect_iff, MutableUrl.toString_updateUrl_same rfl, Option.some_inj]
  rcases hnew with ⟨hskipped, hsame⟩ | ⟨hasks, platform, heff⟩
  · rw [hkept hsame]
    exact ⟨.inr, fun h => h.resolve_left fun hasked => hskipped hasked.1⟩
  by_cases hsame : e = cString (c.withUrl url).urlBuffer
  · have hbuffer : newUrl = url.buffer := by
      unfold Configure.effective at heff
      rw [show (c.withUrl url).effectiveUrl = some e from heffective] at heff
      dsimp only at heff
      rw [if_pos hsame] at heff
      exact (Option.some.inj heff).symm
    rw [hkept hbuffer]
    exact ⟨.inr, fun h => h.resolve_left fun hasked => hasked.2 hsame⟩
  · rw [followsRedirect_iff]
    exact iff_of_true (toString_effective heffective hascii hsame heff) (.inl ⟨hasks, hsame⟩)

end Update

/-- A request that follows redirects, answered with a status line and no other header. -/
def configureFollowing (effectiveUrl : List UInt8) : Configure where
  fixedLength := 0
  url := []
  urlLength := 0
  readTimeout := 0
  connTimeout := 0
  followRedirects := true
  doInput := true
  doOutput := false
  response := []
  urlBufferOk := true
  interrupted := false
  perform := ⟨[], some (.ok, 1)⟩
  messages := []
  loop := ⟨⟨0, 0⟩, [⟨false, ⟨[.header (.ofBytes (ascii "HTTP/1.1 200 OK\r\n")),
    .header (.ofBytes (ascii "\r\n"))], some (.ok, 1)⟩, [], false, 0, none, ⟨0, 0⟩⟩]⟩
  effectiveUrl := some effectiveUrl
  newArrayOk := true

/-- A URL that is set twice. -/
def setTwice (first second : List UInt8) : MutableUrl :=
  (MutableUrl.setUrlString (second.map (·.toUInt16))
    (MutableUrl.setUrlString (first.map (·.toUInt16)) ⟨[], 0⟩).1).1

/-- The state of a fresh handle. -/
def freshHandle : Transfer := .fresh latinPlatform fun _ => 0

/-- A short URL, set after a long one. -/
def shortUrl : MutableUrl := setTwice (ascii "http://a/long") (ascii "http://a/x")

theorem follows_redirect_shorter :
    FollowsRedirect (ascii "http://b/") shortUrl
      ⟨(ascii "http://b/\x00ong").map (·.toUInt16), 9⟩ :=
  (follows_redirect_iff (configureFollowing (ascii "http://b/")) shortUrl
    ⟨(ascii "http://b/\x00ong").map (·.toUInt16), 9⟩ freshHandle
    (Transfer.configure (configureFollowing (ascii "http://b/")) shortUrl freshHandle).1
    (ascii "http://b/") rfl rfl (by decide +kernel) (Prod.ext rfl rfl)).mpr (.inl ⟨rfl, by decide⟩)

/-- The short URL is not redirected: the end of the long one comes back. -/
theorem not_follows_redirect_stale :
    (Transfer.configure (configureFollowing (ascii "http://a/x")) shortUrl freshHandle).2 =
      some (.ok ⟨(ascii "http://a/xong").map (·.toUInt16), 13⟩) ∧
    ¬ FollowsRedirect (ascii "http://a/x") shortUrl
      ⟨(ascii "http://a/xong").map (·.toUInt16), 13⟩ := by
  refine ⟨rfl, ?_⟩
  rw [followsRedirect_iff]
  decide

end Chttpc
