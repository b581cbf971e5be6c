import DispatcharrPvr.RedirectPolicy
import Mathlib.Data.List.TakeWhile

/-!
# RedirectPolicy.Origin

What `ParseUrlOrigin` accepts: the URLs put together from a scheme, perhaps a
user, a host, perhaps a port, and a rest that a slash, question mark or number
sign sets off.  The parts are given apart from the parser; it finds exactly
them, so a URL has one origin at most.
-/

namespace DispatcharrPvr

open Cut

/-! ## the parts of a URL -/

/-- The parts of an absolute URL. -/
structure UrlParts where
  scheme : ByteString
  userInfo : Option ByteString
  bracketed : Bool
  host : ByteString
  port : Option ByteString
  rest : ByteString

namespace UrlParts

/-- The user and the at sign. -/
def userInfoText (parts : UrlParts) : ByteString :=
  match parts.userInfo with
  | none => []
  | some user => user ++ [64]

/-- The host, in brackets or not. -/
def hostText (parts : UrlParts) : ByteString :=
  if parts.bracketed then 91 :: parts.host ++ [93] else parts.host

/-- The colon and the port. -/
def portText (parts : UrlParts) : ByteString :=
  match parts.port with
  | none => []
  | some port => 58 :: port

/-- The authority. -/
def authority (parts : UrlParts) : ByteString :=
  parts.userInfoText ++ (parts.hostText ++ parts.portText)

/-- The URL. -/
def text (parts : UrlParts) : ByteString :=
  parts.scheme ++ ascii "://" ++ (parts.authority ++ parts.rest)

/-- The port that is connected to. -/
def effectivePort (parts : UrlParts) : Int :=
  match parts.port.getD [] with
  | [] => if toLower parts.scheme = ascii "https" then 443 else 80
  | port => atoi port

/-- The origin. -/
def origin (parts : UrlParts) : UrlOrigin where
  valid := true
  scheme := toLower parts.scheme
  host := toLower parts.host
  port := parts.effectivePort
  hasUserInfo := parts.userInfo.isSome

/-- What the parts are made of. -/
structure WellFormed (parts : UrlParts) : Prop where
  scheme : toLower parts.scheme = ascii "http" ∨ toLower parts.scheme = ascii "https"
  authority : ∀ b ∈ parts.authority, isAuthorityEnd b = false
  no_at : ∀ b ∈ parts.hostText ++ parts.portText, b ≠ 64
  host_ne_nil : parts.host ≠ []
  host : if parts.bracketed then 93 ∉ parts.host else 58 ∉ parts.host ∧ parts.host.head? ≠ some 91
  port : ∀ port, parts.port = some port → port ≠ [] →
    port.all isDigit = true ∧ port.length ≤ 5 ∧ 1 ≤ atoi port ∧ atoi port ≤ 65535
  rest : ∀ b ∈ parts.rest.head?, isAuthorityEnd b = true

end UrlParts

/-- The URL is put together from parts with this origin. -/
def HasOrigin (url : ByteString) (origin : UrlOrigin) : Prop :=
  ∃ parts : UrlParts, parts.WellFormed ∧ parts.text = url ∧ parts.origin = origin

/-! ## the parser finds the parts -/

namespace UrlParts

variable {parts : UrlParts}

/-- A scheme has no colon. -/
theorem WellFormed.colon_notMem_scheme (h : parts.WellFormed) : 58 ∉ parts.scheme := by
  intro hmem
  have hlower : asciiToLower 58 ∈ toLower parts.scheme := List.mem_map_of_mem hmem
  cases h.scheme with
  | inl hhttp => rw [hhttp] at hlower; exact absurd hlower (by decide)
  | inr hhttps => rw [hhttps] at hlower; exact absurd hlower (by decide)

theorem WellFormed.splitHostPort_eq (h : parts.WellFormed) :
    splitHostPort (parts.hostText ++ parts.portText) = some (parts.host, parts.port.getD []) := by
  have hhost := h.host
  cases hbracketed : parts.bracketed with
  | true =>
      simp only [hbracketed, if_true] at hhost
      have hfirst : (parts.hostText ++ parts.portText).head? = some 91 := by
        simp [hostText, hbracketed]
      have hcut : cutFirst [93] ((parts.hostText ++ parts.portText).drop 1) =
          some (parts.host, parts.portText) := by
        rw [cutFirst_singleton_eq_some_iff]
        simp [hostText, hbracketed, hhost]
      rw [splitHostPort, if_pos hfirst, hcut]
      cases hport : parts.port <;> simp [portText, hport]
  | false =>
      simp only [hbracketed, Bool.false_eq_true, if_false] at hhost
      obtain ⟨hcolon, hbracket⟩ := hhost
      have hfirst : (parts.hostText ++ parts.portText).head? ≠ some 91 := by
        cases hcases : parts.host with
        | nil => exact absurd hcases h.host_ne_nil
        | cons b host =>
            rw [hcases] at hbracket
            simpa [hostText, hbracketed, hcases] using hbracket
      rw [splitHostPort, if_neg hfirst]
      cases hport : parts.port with
      | none =>
          have hcut : cutFirst [58] (parts.hostText ++ parts.portText) = none := by
            rw [cutFirst_singleton_eq_none_iff]
            simpa [hostText, hbracketed, portText, hport] using hcolon
          rw [hcut]
          simp [hostText, hbracketed, portText, hport]
      | some port =>
          have hcut : cutFirst [58] (parts.hostText ++ parts.portText) = some (parts.host, port) := by
            rw [cutFirst_singleton_eq_some_iff]
            simp [hostText, hbracketed, portText, hport, hcolon]
          rw [hcut]
          simp

theorem WellFormed.parsePort_eq (h : parts.WellFormed) :
    parsePort (toLower parts.scheme) (parts.port.getD []) = some parts.effectivePort := by
  unfold parsePort effectivePort
  cases hport : parts.port with
  | none => simp
  | some port =>
      cases port with
      | nil => simp
      | cons b port =>
          obtain ⟨hdigits, hlength, hlow, hhigh⟩ := h.port _ hport (List.cons_ne_nil b port)
          have hrange : ¬ (atoi (b :: port) < 1 ∨ atoi (b :: port) > 65535) := by omega
          have hshort : ¬ (b :: port).length > 5 := by omega
          simp only [Option.getD_some, List.isEmpty_cons, Bool.false_eq_true, if_false, hdigits,
            Bool.not_true, if_neg hshort, if_neg hrange]

/-- The parser finds the parts. -/
theorem WellFormed.parseUrlOrigin_text (h : parts.WellFormed) :
    parseUrlOrigin parts.text = parts.origin := by
  have hscheme : cutFirst (ascii "://") parts.text =
      some (parts.scheme, parts.authority ++ parts.rest) :=
    cutFirst_append h.colon_notMem_scheme
  have hauthority : (parts.authority ++ parts.rest).takeWhile (fun b => !isAuthorityEnd b) =
      parts.authority := by
    refine (span_append (fun b hb => ?_) fun b hb => ?_).1
    · rw [h.authority b hb]
      rfl
    · rw [h.rest b hb]
      rfl
  have hknown : ¬ (toLower parts.scheme ≠ ascii "http" ∧ toLower parts.scheme ≠ ascii "https") := by
    intro hneither
    exact h.scheme.elim hneither.1 hneither.2
  have hnoAt : 64 ∉ parts.hostText ++ parts.portText := fun hmem => h.no_at 64 hmem rfl
  have hhost : parts.host.isEmpty = false := by simpa using h.host_ne_nil
  rw [parseUrlOrigin, hscheme]
  simp only [if_neg hknown, hauthority]
  have huser : splitUserInfo parts.authority =
      (parts.userInfo.isSome, parts.hostText ++ parts.portText) := by
    unfold splitUserInfo
    cases huser : parts.userInfo with
    | none =>
        have hplain : parts.authority = parts.hostText ++ parts.portText := by
          simp [UrlParts.authority, userInfoText, huser]
        rw [hplain, cutLast_eq_none_iff.mpr hnoAt]
        rfl
    | some user =>
        have hcut : cutLast 64 parts.authority = some (user, parts.hostText ++ parts.portText) := by
          rw [cutLast_eq_some_iff]
          exact ⟨by simp [UrlParts.authority, userInfoText, huser], hnoAt⟩
        rw [hcut]
        rfl
  simp only [huser, h.splitHostPort_eq, hhost, Bool.false_eq_true, if_false, h.parsePort_eq]
  rfl

end UrlParts

/-! ## what the parser accepts -/

theorem splitUserInfo_spec (authority : ByteString) :
    ∃ (user : Option ByteString) (hostPort : ByteString),
      splitUserInfo authority = (user.isSome, hostPort) ∧
      authority = (match user with
          | none => []
          | some user => user ++ [64]) ++ hostPort ∧
      64 ∉ hostPort := by
  unfold splitUserInfo
  cases hcut : cutLast 64 authority with
  | none => exact ⟨none, authority, rfl, rfl, cutLast_eq_none_iff.mp hcut⟩
  | some cut =>
      obtain ⟨before, after⟩ := cut
      obtain ⟨rfl, hnoAt⟩ := cutLast_eq_some_iff.mp hcut
      exact ⟨some before, after, rfl, by simp, hnoAt⟩

theorem splitHostPort_eq_some {authority host portText : ByteString}
    (h : splitHostPort authority = some (host, portText)) :
    ∃ (bracketed : Bool) (port : Option ByteString), port.getD [] = portText ∧
      authority = (if bracketed then 91 :: host ++ [93] else host) ++
        (match port with
          | none => []
          | some port => 58 :: port) ∧
      if bracketed then 93 ∉ host else 58 ∉ host ∧ host.head? ≠ some 91 := by
  unfold splitHostPort at h
  by_cases hbracket : authority.head? = some 91
  · rw [if_pos hbracket] at h
    obtain ⟨inside, rfl⟩ := List.head?_eq_some_iff.mp hbracket
    rw [List.drop_one, List.tail_cons] at h
    cases hcut : cutFirst [93] inside with
    | none => simp [hcut] at h
    | some cut =>
        obtain ⟨before, after⟩ := cut
        obtain ⟨rfl, hclosed⟩ := cutFirst_singleton_eq_some_iff.mp hcut
        cases after with
        | nil =>
            simp only [hcut, Option.some.injEq, Prod.mk.injEq] at h
            obtain ⟨rfl, rfl⟩ := h
            exact ⟨true, none, rfl, by simp, hclosed⟩
        | cons colon after =>
            simp only [hcut] at h
            split at h
            · next hcolon =>
                simp only [Option.some.injEq, Prod.mk.injEq] at h
                obtain ⟨rfl, rfl⟩ := h
                exact ⟨true, some after, rfl, by simp [hcolon], hclosed⟩
            · contradiction
  · rw [if_neg hbracket] at h
    cases hcut : cutFirst [58] authority with
    | none =>
        simp only [hcut, Option.some.injEq, Prod.mk.injEq] at h
        obtain ⟨rfl, rfl⟩ := h
        exact ⟨false, none, rfl, by simp, cutFirst_singleton_eq_none_iff.mp hcut, hbracket⟩
    | some cut =>
        obtain ⟨before, after⟩ := cut
        obtain ⟨rfl, hcolon⟩ := cutFirst_singleton_eq_some_iff.mp hcut
        simp only [hcut, Option.some.injEq, Prod.mk.injEq] at h
        obtain ⟨rfl, rfl⟩ := h
        refine ⟨false, some after, rfl, by simp, hcolon, fun hhead => hbracket ?_⟩
        rw [List.head?_append, hhead]
        rfl

theorem parsePort_eq_some {scheme portText : ByteString} {port : Int}
    (h : parsePort scheme portText = some port) :
    (portText = [] ∧ port = if scheme = ascii "https" then 443 else 80) ∨
    (portText ≠ [] ∧ portText.all isDigit = true ∧ portText.length ≤ 5 ∧ port = atoi portText ∧
      1 ≤ port ∧ port ≤ 65535) := by
  unfold parsePort at h
  by_cases hempty : portText.isEmpty = true
  · rw [if_pos hempty] at h
    exact .inl ⟨by simpa using hempty, (Option.some.inj h).symm⟩
  · rw [if_neg hempty] at h
    right
    by_cases hdigits : portText.all isDigit = true
    · by_cases hlength : portText.length > 5
      · simp [hdigits, hlength] at h
      · simp only [hdigits, Bool.not_true, Bool.false_eq_true, if_false, if_neg hlength] at h
        split at h
        · contradiction
        · next hrange =>
            obtain rfl : atoi portText = port := Option.some.inj h
            exact ⟨by simpa using hempty, hdigits, by omega, rfl, by omega, by omega⟩
    · simp [hdigits] at h

/-- What the parser accepts is put together from the parts it finds. -/
theorem hasOrigin_of_valid {url : ByteString} (h : (parseUrlOrigin url).valid = true) :
    HasOrigin url (parseUrlOrigin url) := by
  cases hscheme : cutFirst (ascii "://") url with
  | none => simp [parseUrlOrigin, hscheme] at h
  | some cut =>
      obtain ⟨schemeText, afterScheme⟩ := cut
      obtain rfl := cutFirst_eq_some hscheme
      rw [parseUrlOrigin, hscheme] at h ⊢
      by_cases hknown : toLower schemeText ≠ ascii "http" ∧ toLower schemeText ≠ ascii "https"
      · simp [if_pos hknown] at h
      · simp only [if_neg hknown] at h ⊢
        obtain ⟨user, hostPort, hsplit, hauthority, hnoAt⟩ :=
          splitUserInfo_spec (afterScheme.takeWhile fun b => !isAuthorityEnd b)
        simp only [hsplit] at h ⊢
        cases hhostPort : splitHostPort hostPort with
        | none => simp [hhostPort] at h
        | some split =>
            obtain ⟨host, portText⟩ := split
            simp only [hhostPort] at h ⊢
            by_cases hhost : host.isEmpty = true
            · rw [if_pos hhost] at h
              contradiction
            · simp only [if_neg hhost] at h ⊢
              cases hport : parsePort (toLower schemeText) portText with
              | none => simp [hport] at h
              | some number =>
                  obtain ⟨bracketed, port, rfl, rfl, hhostText⟩ := splitHostPort_eq_some hhostPort
                  let parts : UrlParts := ⟨schemeText, user, bracketed, host, port,
                    afterScheme.dropWhile fun b => !isAuthorityEnd b⟩
                  have hauthorityText : parts.authority =
                      afterScheme.takeWhile fun b => !isAuthorityEnd b := hauthority.symm
                  have hnumber := parsePort_eq_some hport
                  have hformed : parts.WellFormed := by
                    refine ⟨Decidable.or_iff_not_not_and_not.mpr hknown, fun b hb => ?_,
                      fun b hb hat => hnoAt (hat ▸ hb), by simpa using hhost, hhostText, ?_, ?_⟩
                    · rw [hauthorityText] at hb
                      simpa using List.mem_takeWhile_imp hb
                    · intro text htext hne
                      obtain rfl : port = some text := htext
                      obtain ⟨hnil, -⟩ | ⟨-, hdigits, hlength, rfl, hlow, hhigh⟩ := hnumber
                      · exact absurd hnil hne
                      · exact ⟨hdigits, hlength, hlow, hhigh⟩
                    · intro b hb
                      simpa using head?_dropWhile b hb
                  have htext : parts.text = schemeText ++ ascii "://" ++ afterScheme := by
                    rw [UrlParts.text, hauthorityText, List.takeWhile_append_dropWhile]
                  have hsame := hformed.parseUrlOrigin_text
                  rw [htext, parseUrlOrigin, hscheme] at hsame
                  simp only [if_neg hknown, hsplit, hhostPort, if_neg hhost, hport] at hsame
                  exact ⟨parts, hformed, htext, hsame.symm⟩

/-- **The parser accepts a URL exactly when it has an origin**, and returns it. -/
theorem hasOrigin_iff {url : ByteString} {origin : UrlOrigin} :
    HasOrigin url origin ↔ (parseUrlOrigin url).valid = true ∧ parseUrlOrigin url = origin := by
  constructor
  · rintro ⟨parts, hformed, rfl, rfl⟩
    rw [hformed.parseUrlOrigin_text]
    exact ⟨rfl, rfl⟩
  · rintro ⟨hvalid, rfl⟩
    exact hasOrigin_of_valid hvalid

example : HasOrigin (ascii "HTTPS://user@[FE80::1]:/hls/a.ts")
    { valid := true, scheme := ascii "https", host := ascii "fe80::1", port := 443,
      hasUserInfo := true } := by
  rw [hasOrigin_iff]
  decide

/-- A URL has one origin at most. -/
theorem HasOrigin.unique {url : ByteString} {a b : UrlOrigin} (ha : HasOrigin url a)
    (hb : HasOrigin url b) : a = b :=
  (hasOrigin_iff.mp ha).2.symm.trans (hasOrigin_iff.mp hb).2

end DispatcharrPvr
