import DispatcharrPvr.InProgressRecording
import DispatcharrPvr.RedirectPolicy.Origin
import Mathlib.Data.List.Chain

/-!
# RedirectPolicy.Credentials

Where the API key goes: a segment of a playlist is requested with it only on
the configured server, and a redirect is followed only to the same host, at
most as often as the limit says.
-/

namespace DispatcharrPvr

open Cut

/-! ## C strings -/

theorem asciiToLower_eq_zero {b : UInt8} (h : asciiToLower b = 0) : b = 0 := by
  unfold asciiToLower at h
  split at h
  · next hupper =>
      have hval := congrArg UInt8.toNat h
      have hlow := UInt8.le_iff_toNat_le.mp hupper.1
      have hhigh := UInt8.le_iff_toNat_le.mp hupper.2
      simp only [UInt8.toNat_add, UInt8.toNat_ofNat] at hval hlow hhigh
      omega
  · exact h

theorem zero_mem_toLower {s : ByteString} : 0 ∈ toLower s ↔ 0 ∈ s := by
  constructor
  · intro h
    obtain ⟨b, hb, hlower⟩ := List.mem_map.mp h
    exact asciiToLower_eq_zero hlower ▸ hb
  · intro h
    exact List.mem_map.mpr ⟨0, h, by decide⟩

/-- Only what follows a text without a zero byte is cut short. -/
theorem cString_append {s rest : ByteString} (h : 0 ∉ s) :
    cString (s ++ rest) = s ++ cString rest := by
  unfold cString
  refine List.takeWhile_append_of_pos fun b hb => ?_
  simpa using fun hzero : b = 0 => h (hzero ▸ hb)

theorem isDigit_ne_zero {b : UInt8} (h : isDigit b = true) : b ≠ 0 := by
  rintro rfl
  exact absurd h (by decide)

/-- A zero byte in a URL whose host has none is behind the authority, or in the
user info. -/
theorem HasOrigin.cString {url : ByteString} {origin : UrlOrigin} (h : HasOrigin url origin)
    (huser : origin.hasUserInfo = false) (hhost : 0 ∉ origin.host) :
    HasOrigin (cString url) origin := by
  obtain ⟨parts, hformed, rfl, rfl⟩ := h
  have hnone : parts.userInfo = none := by simpa [UrlParts.origin] using huser
  have hhostText : 0 ∉ parts.hostText := by
    have hplain : 0 ∉ parts.host := fun hmem => hhost (zero_mem_toLower.mpr hmem)
    unfold UrlParts.hostText
    split
    · simpa using hplain
    · exact hplain
  have hportText : 0 ∉ parts.portText := by
    unfold UrlParts.portText
    cases hport : parts.port with
    | none => simp
    | some port =>
        simp only [List.mem_cons, not_or]
        refine ⟨by decide, fun hmem => ?_⟩
        have hdigits := (hformed.port port hport (List.ne_nil_of_mem hmem)).1
        exact isDigit_ne_zero (List.all_eq_true.mp hdigits 0 hmem) rfl
  have hscheme : 0 ∉ parts.scheme := by
    intro hmem
    have hlower := zero_mem_toLower.mpr hmem
    cases hformed.scheme with
    | inl hhttp => rw [hhttp] at hlower; exact absurd hlower (by decide)
    | inr hhttps => rw [hhttps] at hlower; exact absurd hlower (by decide)
  have hfront : 0 ∉ parts.scheme ++ ascii "://" ++ parts.authority := by
    simp only [UrlParts.authority, UrlParts.userInfoText, hnone, List.nil_append, List.mem_append,
      not_or]
    exact ⟨⟨hscheme, by decide⟩, hhostText, hportText⟩
  refine ⟨{ parts with rest := DispatcharrPvr.cString parts.rest },
    ⟨hformed.scheme, hformed.authority, hformed.no_at, hformed.host_ne_nil, hformed.host,
      hformed.port, ?_⟩, ?_, rfl⟩
  · intro b hb
    cases hrest : parts.rest with
    | nil => simp [hrest, DispatcharrPvr.cString] at hb
    | cons c rest =>
        have hend := hformed.rest c (by rw [hrest]; rfl)
        simp only [hrest, DispatcharrPvr.cString, List.takeWhile_cons] at hb
        split at hb
        · obtain rfl : c = b := by simpa using hb
          exact hend
        · simp at hb
  · rw [UrlParts.text, UrlParts.text, ← List.append_assoc, ← List.append_assoc,
      cString_append hfront]
    rfl

/-! ## the configured server -/

/-- Two URLs of the same origin. -/
theorem hasOrigin_of_isSameOrigin {urlA urlB : ByteString} (h : isSameOrigin urlA urlB = true) :
    ∃ origin, HasOrigin urlA origin ∧ HasOrigin urlB origin ∧ origin.hasUserInfo = false := by
  unfold isSameOrigin at h
  simp only at h
  split at h
  · contradiction
  · next hvalid =>
      obtain ⟨⟨⟨hvalidA, hvalidB⟩, huserA⟩, huserB⟩ : (((parseUrlOrigin urlA).valid = true ∧
          (parseUrlOrigin urlB).valid = true) ∧ (parseUrlOrigin urlA).hasUserInfo = false) ∧
          (parseUrlOrigin urlB).hasUserInfo = false := by
        simpa using hvalid
      obtain ⟨⟨hscheme, hhost⟩, hport⟩ : ((parseUrlOrigin urlA).scheme = (parseUrlOrigin urlB).scheme ∧
          (parseUrlOrigin urlA).host = (parseUrlOrigin urlB).host) ∧
          (parseUrlOrigin urlA).port = (parseUrlOrigin urlB).port := by
        simpa using h
      have hsame : parseUrlOrigin urlA = parseUrlOrigin urlB := by
        cases ha : parseUrlOrigin urlA
        cases hb : parseUrlOrigin urlB
        simp_all
      exact ⟨parseUrlOrigin urlA, hasOrigin_of_valid hvalidA, hsame ▸ hasOrigin_of_valid hvalidB,
        huserA⟩

theorem toUInt8_ne_zero_of_isDigit {c : Char} (h : c.isDigit = true) : c.toNat.toUInt8 ≠ 0 := by
  have hrange : 48 ≤ c.toNat ∧ c.toNat ≤ 57 := by
    simpa [Char.isDigit, UInt32.le_iff_toNat_le] using h
  intro hzero
  have hval := congrArg UInt8.toNat hzero
  simp only [Nat.toUInt8, UInt8.toNat_ofNat', UInt8.toNat_ofNat] at hval
  omega

theorem zero_notMem_ascii_toString (n : Nat) : 0 ∉ ascii (toString n) := by
  intro hmem
  simp only [ascii, List.mem_map] at hmem
  obtain ⟨c, hc, hzero⟩ := hmem
  have hdigit : c ∈ Nat.toDigits 10 n := by simpa using hc
  exact toUInt8_ne_zero_of_isDigit
    (Nat.isDigit_of_mem_toDigits (by decide) (by decide) hdigit) hzero

theorem zero_notMem_toByteString (n : Int) : 0 ∉ toByteString n := by
  cases n with
  | ofNat n => exact zero_notMem_ascii_toString n
  | negSucc n =>
      have hsigned : toByteString (Int.negSucc n) = 45 :: ascii (toString (n + 1)) := by
        simp [toByteString, ascii, toString, Int.repr]
      rw [hsigned]
      simpa using zero_notMem_ascii_toString (n + 1)

namespace ServerConfig

theorem zero_notMem_baseUrl (config : ServerConfig) : 0 ∉ config.baseUrl := by
  have hhost : 0 ∉ formatHostForUrl config.host := by
    unfold formatHostForUrl
    split
    · exact config.no_nul
    · simpa using config.no_nul
  have hscheme : 0 ∉ if config.useHttps then ascii "https://" else ascii "http://" := by
    split <;> decide
  simp only [baseUrl, List.mem_append, not_or]
  exact ⟨⟨⟨hscheme, hhost⟩, by decide⟩, zero_notMem_toByteString config.port⟩

/-- A segment is requested with the key only where the configured server is. -/
theorem segmentRequest_origin {config : ServerConfig} {segmentUrl : ByteString}
    {request : CredentialRequest} (h : config.segmentRequest segmentUrl = some request) :
    ∃ origin, HasOrigin request.url origin ∧ HasOrigin config.baseUrl origin ∧
      origin.hasUserInfo = false := by
  unfold segmentRequest at h
  split at h
  · contradiction
  · next hserver =>
      obtain ⟨origin, hsegment, hbase, huser⟩ :=
        hasOrigin_of_isSameOrigin (by simpa using hserver : config.isOnConfiguredServer segmentUrl = true)
      obtain rfl : _ = request := Option.some.inj h
      refine ⟨origin, hsegment.cString huser ?_, hbase, huser⟩
      -- the host is the configured one, which has no zero byte
      obtain ⟨parts, -, htext, rfl⟩ := hbase
      intro hmem
      have hhost : 0 ∈ parts.host := zero_mem_toLower.mp hmem
      refine config.zero_notMem_baseUrl ?_
      rw [← htext]
      have hhostText : 0 ∈ parts.hostText := by
        unfold UrlParts.hostText
        split
        · simp [hhost]
        · exact hhost
      simp [UrlParts.text, UrlParts.authority, hhostText]

end ServerConfig

/-! ## redirects -/

/-- The second URL is on the same host, and not a downgrade from https. -/
def SafeHop (fromUrl toUrl : ByteString) : Prop :=
  ∃ source target, HasOrigin fromUrl source ∧ HasOrigin toUrl target ∧
    target.hasUserInfo = false ∧ target.host = source.host ∧
    (source.scheme = ascii "https" → target.scheme = ascii "https")

theorem SafeHop.trans {a b c : ByteString} (hab : SafeHop a b) (hbc : SafeHop b c) :
    SafeHop a c := by
  obtain ⟨source, middle, hsource, hmiddle, -, hhost, hscheme⟩ := hab
  obtain ⟨middle', target, hmiddle', htarget, huser, hhost', hscheme'⟩ := hbc
  obtain rfl := hmiddle.unique hmiddle'
  exact ⟨source, target, hsource, htarget, huser, hhost'.trans hhost,
    fun hhttps => hscheme' (hscheme hhttps)⟩

theorem safeHop_of_isSafeRedirectTarget {fromUrl toUrl : ByteString}
    (h : isSafeRedirectTarget fromUrl toUrl = true) : SafeHop fromUrl toUrl := by
  unfold isSafeRedirectTarget at h
  simp only at h
  split at h
  · contradiction
  · next hvalid =>
      obtain ⟨⟨hvalidFrom, hvalidTo⟩, huser⟩ : ((parseUrlOrigin fromUrl).valid = true ∧
          (parseUrlOrigin toUrl).valid = true) ∧ (parseUrlOrigin toUrl).hasUserInfo = false := by
        simpa using hvalid
      split at h
      · contradiction
      · next hhost =>
          split at h
          · contradiction
          · next hscheme =>
              have hto := hasOrigin_of_valid hvalidTo
              refine ⟨_, _, hasOrigin_of_valid hvalidFrom, hto, huser,
                (Decidable.not_not.mp hhost).symm, fun hhttps => ?_⟩
              obtain ⟨parts, hformed, -, horigin⟩ := hto
              rw [← horigin] at hscheme ⊢
              exact hformed.scheme.resolve_left fun hhttp => hscheme ⟨hhttps, hhttp⟩

/-- A redirect is followed only below the limit, to a safe target. -/
theorem decideRedirectStep_follows {httpCode hop limit : Int}
    {switchPostToGet hasLocation targetIsSafe : Bool}
    (h : decideRedirectStep httpCode hop limit switchPostToGet hasLocation targetIsSafe = .follow ∨
      decideRedirectStep httpCode hop limit switchPostToGet hasLocation targetIsSafe =
        .followAsGet) :
    hop < limit ∧ targetIsSafe = true := by
  have hlimit : decideRedirectFollow httpCode hop limit switchPostToGet = .tooManyRedirects ∨
      decideRedirectFollow httpCode hop limit switchPostToGet = .notARedirect ∨ hop < limit := by
    unfold decideRedirectFollow
    simp only
    split
    · exact .inr (.inl rfl)
    · split
      · exact .inl rfl
      · exact .inr (.inr (by omega))
  unfold decideRedirectStep at h
  cases targetIsSafe with
  | false =>
      simp only [Bool.not_false, if_true] at h
      split at h <;> simp at h
  | true =>
      refine ⟨?_, rfl⟩
      obtain hmany | hnone | hlt := hlimit
      · cases hasLocation <;> simp [hmany] at h
      · simp [hnone] at h
      · exact hlt

/-- The requests of a chain: the first is the one asked for, each next one is to
a safe target of the one before, and there are at most as many as the limit
leaves. -/
theorem performFrom_spec (switchPostToGet : Bool) {hop : Nat} (hhop : hop ≤ maxRedirects)
    (current : CredentialRequest) (replies : List RedirectReply) :
    let urls := (performFrom switchPostToGet hop current replies).map (·.url)
    urls.head? = some current.url ∧ urls.length + hop ≤ maxRedirects + 1 ∧ urls.IsChain SafeHop := by
  induction replies generalizing hop current with
  | nil => exact ⟨rfl, by simp [performFrom]; omega, .singleton _⟩
  | cons reply replies ih =>
      have hstops : let urls := [current].map (·.url)
          urls.head? = some current.url ∧ urls.length + hop ≤ maxRedirects + 1 ∧
            urls.IsChain SafeHop :=
        ⟨rfl, by simp; omega, .singleton _⟩
      cases reply with
      | failed => exact hstops
      | answered httpCode location =>
          -- the next request, to the location
          have hnext : ∀ asGet, (hop : Int) < maxRedirects →
              (!location.isEmpty && isSafeRedirectTarget current.url location) = true →
              let urls := (current :: performFrom switchPostToGet (hop + 1) ⟨location, asGet⟩
                replies).map (·.url)
              urls.head? = some current.url ∧ urls.length + hop ≤ maxRedirects + 1 ∧
                urls.IsChain SafeHop := by
            intro asGet hlt hsafe
            have hbelow : hop + 1 ≤ maxRedirects := by omega
            obtain ⟨hhead, hlength, hchain⟩ := ih hbelow ⟨location, asGet⟩
            have hhop : SafeHop current.url location :=
              safeHop_of_isSafeRedirectTarget (Bool.and_eq_true_iff.mp hsafe).2
            refine ⟨rfl, ?_, ?_⟩
            · rw [List.map_cons, List.length_cons]
              omega
            · rw [List.map_cons, List.isChain_cons]
              refine ⟨fun url hurl => ?_, hchain⟩
              rw [hhead] at hurl
              obtain rfl : location = url := by simpa using hurl
              exact hhop
          simp only [performFrom]
          split
          · exact hstops
          · exact hstops
          · exact hstops
          · next hstep =>
              obtain ⟨hlt, hsafe⟩ := decideRedirectStep_follows (.inr hstep)
              exact hnext true hlt hsafe
          · next hstep =>
              obtain ⟨hlt, hsafe⟩ := decideRedirectStep_follows (.inl hstep)
              exact hnext current.asGet hlt hsafe

/-- **The API key stays on the configured server.**  A segment of any playlist
that is probed, kept alive or read with the key has the origin of the configured
base, and names no user.  The requests of a redirect chain, however the server
answers, start with the one asked for and are at most five more; each is on the
host of those before it, and none goes from https to http. -/
theorem api_key_stays_on_server (config : ServerConfig) (recordingId : Int)
    (arithmetic : DoubleArithmetic) :
    let source : InProgressSource := { baseUrl := config.baseUrl, recordingId, arithmetic }
    (∀ playlistText alreadyKnown, ∀ entry ∈ source.pending playlistText alreadyKnown,
      ∀ request, (config.probeSegmentByteSize entry.url = some request ∨
          config.sendInProgressHlsKeepAlive entry.url = some request ∨
          config.readInProgressSegment entry.url = some request) →
        ∃ origin, HasOrigin request.url origin ∧ HasOrigin config.baseUrl origin ∧
          origin.hasUserInfo = false) ∧
    ∀ startUrl switchPostToGet replies,
      let urls := (performWithSafeRedirects startUrl switchPostToGet replies).map (·.url)
      urls.head? = some startUrl ∧ urls.length ≤ maxRedirects + 1 ∧ urls.Pairwise SafeHop := by
  intro source
  constructor
  · intro playlistText alreadyKnown entry _ request hrequest
    obtain hprobe | hkeepAlive | hread := hrequest
    · exact ServerConfig.segmentRequest_origin hprobe
    · exact ServerConfig.segmentRequest_origin hkeepAlive
    · exact ServerConfig.segmentRequest_origin hread
  · intro startUrl switchPostToGet replies
    obtain ⟨hhead, hlength, hchain⟩ :=
      performFrom_spec switchPostToGet (Nat.zero_le maxRedirects) { url := startUrl } replies
    have htrans : IsTrans ByteString SafeHop := ⟨fun _ _ _ => SafeHop.trans⟩
    exact ⟨hhead, hlength, List.isChain_iff_pairwise.mp hchain⟩

end DispatcharrPvr
