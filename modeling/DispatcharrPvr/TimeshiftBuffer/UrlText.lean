import DispatcharrPvr.Lib.Cut
import DispatcharrPvr.TimeshiftBuffer.LiveManifest
import Mathlib.Algebra.Group.Nat.Defs

/-!
# TimeshiftBuffer.UrlText

The text functions of Python's library that the file server reads a request
with: `urlparse`, `unquote` and `parse_qs` of `urllib.parse`; and which texts
`uuid.UUID` takes, since a buffer is started for no others.

What these look up in tables of Unicode and of media types is a parameter.
-/

namespace DispatcharrPvr

namespace TimeshiftBuffer

open Cut

/-- What the functions on text look up elsewhere. -/
structure UrlLibrary where
  /-- Whether `urlsplit` takes a network location; it raises where it does not. -/
  netlocAllowed : Text → Bool
  /-- Whether a character beyond ASCII is a decimal digit. -/
  isDecimal : Char → Bool
  /-- `mimetypes.guess_type(name)[0]`. -/
  guessType : Text → Option Text

/-! ## UTF-8 -/

/-- How many bytes a lead byte announces. -/
def announced (lead : UInt8) : Option Nat :=
  if lead < 0x80 then some 0
  else if lead < 0xC2 then none
  else if lead < 0xE0 then some 1
  else if lead < 0xF0 then some 2
  else if lead < 0xF5 then some 3
  else none

/-- The least and the greatest second byte behind a lead byte. -/
def secondBytes (lead : UInt8) : UInt8 × UInt8 :=
  if lead = 0xE0 then (0xA0, 0xBF)
  else if lead = 0xED then (0x80, 0x9F)
  else if lead = 0xF0 then (0x90, 0xBF)
  else if lead = 0xF4 then (0x80, 0x8F)
  else (0x80, 0xBF)

/-- The announced bytes, as far as they are there. -/
def announcedBytes : UInt8 × UInt8 → Nat → List UInt8 → List UInt8
  | _, 0, _ => []
  | _, _ + 1, [] => []
  | bounds, n + 1, b :: rest =>
      if bounds.1 ≤ b ∧ b ≤ bounds.2 then b :: announcedBytes (0x80, 0xBF) n rest else []

/-- The character at a lead byte and the bytes it takes behind it; the
replacement character takes those that were right. -/
def decodeChar (lead : UInt8) (rest : List UInt8) : Char × Nat :=
  match announced lead with
  | none => (Char.ofNat 0xFFFD, 0)
  | some n =>
      let bytes := announcedBytes (secondBytes lead) n rest
      let leadBits := if n = 0 then lead.toNat else lead.toNat % 2 ^ (6 - n)
      if bytes.length = n then
        (Char.ofNat (bytes.foldl (fun value b => value * 64 + b.toNat % 64) leadBits), n)
      else (Char.ofNat 0xFFFD, bytes.length)

/-- `bytes.decode("utf-8", "replace")`, behind as many bytes as `skip`. -/
def decodeFrom : Nat → List UInt8 → Text
  | _, [] => []
  | skip + 1, _ :: rest => decodeFrom skip rest
  | 0, lead :: rest => (decodeChar lead rest).1 :: decodeFrom (decodeChar lead rest).2 rest

/-! ## `unquote` -/

/-- The value of a hexadecimal digit. -/
def hexValue (c : Char) : Option Nat :=
  if '0' ≤ c ∧ c ≤ '9' then some (c.toNat - 48)
  else if 'a' ≤ c ∧ c ≤ 'f' then some (c.toNat - 87)
  else if 'A' ≤ c ∧ c ≤ 'F' then some (c.toNat - 55)
  else none

/-- `unquote_to_bytes`, of ASCII text. -/
def unquoteToBytes : Text → List UInt8
  | [] => []
  | '%' :: high :: low :: rest =>
      match hexValue high, hexValue low with
      | some h, some l => (16 * h + l).toUInt8 :: unquoteToBytes rest
      | _, _ => '%'.toNat.toUInt8 :: unquoteToBytes (high :: low :: rest)
  | c :: rest => c.toNat.toUInt8 :: unquoteToBytes rest

/-- `unquote` behind a run of ASCII: each run is decoded by itself. -/
def unquoteFrom (run : Text) : Text → Text
  | [] => decodeFrom 0 (unquoteToBytes run)
  | c :: rest =>
      if c.val < 0x80 then unquoteFrom (run ++ [c]) rest
      else decodeFrom 0 (unquoteToBytes run) ++ c :: unquoteFrom [] rest

/-- `unquote`. -/
def unquote (text : Text) : Text := unquoteFrom [] text

/-! ## `urlparse` -/

/-- What `urlparse` finds, as far as it is read. -/
structure ParsedUrl where
  path : Text
  query : Text
deriving DecidableEq, Repr

/-- The schemes whose paths end in parameters. -/
def usesParams : List Text :=
  ["", "ftp", "hdl", "prospero", "http", "imap", "https", "shttp", "rtsp", "rtsps", "rtspu",
    "sip", "sips", "mms", "sftp", "tel"].map String.toList

/-- `scheme_chars`. -/
def isSchemeChar (c : Char) : Bool := c.isAlphanum || c == '+' || c == '-' || c == '.'

/-- The scheme, in lower case, and what follows it. -/
def splitScheme (url : Text) : Text × Text :=
  match cutFirst [':'] url with
  | some (first :: scheme, rest) =>
      if first.isAlpha && (first :: scheme).all isSchemeChar then
        ((first :: scheme).map Char.toLower, rest)
      else ([], url)
  | _ => ([], url)

/-- The network location behind `//`, if there is one, and what follows it. -/
def splitNetloc : Text → Option Text × Text
  | '/' :: '/' :: rest =>
      (some (rest.takeWhile fun c => c != '/' && c != '?' && c != '#'),
        rest.dropWhile fun c => c != '/' && c != '?' && c != '#')
  | url => (none, url)

/-- What stands before the first `sep`, and behind it. -/
def partition (sep : Char) (text : Text) : Text × Text := (cutFirst [sep] text).getD (text, [])

/-- `_splitparams`: a path without the parameters of its last part. -/
def withoutParams (path : Text) : Text :=
  match cutLast '/' path with
  | some (before, name) => before ++ '/' :: (partition ';' name).1
  | none => (partition ';' path).1

/-- `urlparse`, `none` where it raises. -/
def urlparse (lib : UrlLibrary) (url : Text) : Option ParsedUrl :=
  let url := (url.dropWhile (·.val ≤ 0x20)).filter fun c => c != '\t' && c != '\r' && c != '\n'
  let (scheme, url) := splitScheme url
  let (netloc, url) := splitNetloc url
  if netloc.all lib.netlocAllowed then
    let (path, query) := partition '?' (partition '#' url).1
    some { path := if scheme ∈ usesParams then withoutParams path else path, query }
  else none

/-! ## `parse_qs` -/

/-- `parse_qsl`: what has no value is left out. -/
def parseQsl (query : Text) : List (Text × Text) :=
  (query.splitOn '&').filterMap fun nameValue =>
    match cutFirst ['='] nameValue with
    | some (name, value) =>
        if value = [] then none
        else some (unquote (name.map fun c => if c = '+' then ' ' else c),
          unquote (value.map fun c => if c = '+' then ' ' else c))
    | none => none

/-- `parse_qs(query).get(name, [None])[0]`. -/
def firstValue (name query : Text) : Option Text :=
  ((parseQsl query).find? (·.1 = name)).map Prod.snd

/-! ## `uuid.UUID` -/

section Uuid

variable (lib : UrlLibrary)

/-- A digit of `int(text, 16)`. -/
def isHexDigit (c : Char) : Bool :=
  if c.val < 0x80 then (hexValue c).isSome else lib.isDecimal c

/-- Digits behind a digit, an underscore standing between two of them. -/
def hexDigits : Text → Bool
  | [] => true
  | '_' :: c :: rest => isHexDigit lib c && hexDigits rest
  | c :: rest => isHexDigit lib c && hexDigits rest

/-- A hexadecimal number without its prefix. -/
def withoutPrefix : Text → Text
  | '0' :: 'x' :: '_' :: rest => rest
  | '0' :: 'X' :: '_' :: rest => rest
  | '0' :: 'x' :: rest => rest
  | '0' :: 'X' :: rest => rest
  | text => text

/-- Whether `int(text, 16)` takes unsigned text. -/
def isHexNumber (text : Text) : Bool :=
  match withoutPrefix text with
  | [] => false
  | c :: rest => isHexDigit lib c && hexDigits lib rest

/-- `text.replace(pattern, "")`, behind as many characters as `skip`. -/
def removeAll (pattern : Text) : Nat → Text → Text
  | _, [] => []
  | skip + 1, _ :: rest => removeAll pattern skip rest
  | 0, c :: rest =>
      if pattern.isPrefixOf (c :: rest) then removeAll pattern (pattern.length - 1) rest
      else c :: removeAll pattern 0 rest

/-- `text.strip(chars)`. -/
def stripChars (chars text : Text) : Text :=
  ((text.dropWhile (· ∈ chars)).reverse.dropWhile (· ∈ chars)).reverse

/-- Whether `int(text, 16)` does not raise, for text without a minus. -/
def isInt16 (text : Text) : Bool :=
  match stripInt text with
  | '+' :: unsigned => isHexNumber lib unsigned
  | unsigned => isHexNumber lib unsigned

/-- What `uuid.UUID` takes for the digits of a text. -/
def uuidDigits (text : Text) : Text :=
  (stripChars "{}".toList
    (removeAll "uuid:".toList 0 (removeAll "urn:".toList 0 text))).filter (· != '-')

/-- Whether `uuid.UUID(text)` does not raise. -/
def isUuid (text : Text) : Bool :=
  (uuidDigits text).length == 32 && isInt16 lib (uuidDigits text)

/-! A dot is in no such text. -/

theorem hexDigits_of_dot {text : Text} (h : '.' ∈ text) : hexDigits lib text = false := by
  have hdot : isHexDigit lib '.' = false := rfl
  induction text using hexDigits.induct with
  | case1 => simp at h
  | case2 c rest ih =>
      rw [hexDigits]
      rcases List.mem_cons.mp ((List.mem_cons.mp h).resolve_left (by decide)) with rfl | hrest
      · rw [hdot, Bool.false_and]
      · rw [ih hrest, Bool.and_false]
  | case3 c rest hne ih =>
      rw [hexDigits]
      · rcases List.mem_cons.mp h with rfl | hrest
        · rw [hdot, Bool.false_and]
        · rw [ih hrest, Bool.and_false]
      · exact hne

theorem isHexNumber_of_dot {text : Text} (h : '.' ∈ text) : isHexNumber lib text = false := by
  have hmem : '.' ∈ withoutPrefix text := by
    rw [withoutPrefix.eq_def]
    split <;> simpa using h
  rw [isHexNumber]
  split
  · rfl
  · next c rest heq =>
      rw [heq] at hmem
      rcases List.mem_cons.mp hmem with rfl | hrest
      · rfl
      · rw [hexDigits_of_dot lib hrest, Bool.and_false]

theorem mem_dropWhile {p : Char → Bool} {c : Char} {text : Text} (hc : p c = false)
    (h : c ∈ text) : c ∈ text.dropWhile p := by
  rw [← List.takeWhile_append_dropWhile (p := p) (l := text), List.mem_append] at h
  refine h.resolve_left fun htake => ?_
  have := List.all_eq_true.mp List.all_takeWhile c htake
  simp [hc] at this

theorem isInt16_of_dot {text : Text} (h : '.' ∈ text) : isInt16 lib text = false := by
  have hspace : isIntSpace '.' = false := by decide
  have hmem : '.' ∈ stripInt text :=
    List.mem_reverse.mpr (mem_dropWhile hspace
      (List.mem_reverse.mpr (mem_dropWhile hspace h)))
  rw [isInt16]
  split
  · next unsigned heq =>
      rw [heq] at hmem
      exact isHexNumber_of_dot lib ((List.mem_cons.mp hmem).resolve_left (by decide))
  · exact isHexNumber_of_dot lib hmem

/-- What is not in the pattern is not removed. -/
theorem mem_removeAll {first c : Char} {pattern : Text} (hc : c ∉ first :: pattern) {skip : Nat}
    {text : Text} (hskip : text.take skip ⊆ first :: pattern) (h : c ∈ text) :
    c ∈ removeAll (first :: pattern) skip text := by
  induction skip, text using removeAll.induct (first :: pattern) with
  | case1 => simp at h
  | case2 skip a rest ih =>
      rw [List.take_succ_cons, List.cons_subset] at hskip
      refine ih hskip.2 ((List.mem_cons.mp h).resolve_left ?_)
      rintro rfl
      exact hc hskip.1
  | case3 a rest hprefix ih =>
      rw [removeAll, if_pos hprefix]
      obtain ⟨rfl, after, rfl⟩ := List.cons_prefix_cons.mp (List.isPrefixOf_iff_prefix.mp hprefix)
      refine ih (by simp) ((List.mem_cons.mp h).resolve_left ?_)
      rintro rfl
      exact hc List.mem_cons_self
  | case4 a rest hprefix ih =>
      rw [removeAll, if_neg hprefix]
      rcases List.mem_cons.mp h with rfl | hrest
      · exact List.mem_cons_self
      · exact List.mem_cons_of_mem _ (ih (by simp) hrest)

theorem isUuid_of_dot {text : Text} (h : '.' ∈ text) : isUuid lib text = false := by
  have hurn : '.' ∈ removeAll "urn:".toList 0 text := mem_removeAll (by decide) (by simp) h
  have huuid : '.' ∈ removeAll "uuid:".toList 0 (removeAll "urn:".toList 0 text) :=
    mem_removeAll (by decide) (by simp) hurn
  have hbraces := mem_dropWhile (p := (· ∈ "{}".toList)) (by decide) huuid
  have hstripped := mem_dropWhile (p := (· ∈ "{}".toList)) (by decide) (List.mem_reverse.mpr hbraces)
  have hdigits : '.' ∈ uuidDigits text :=
    List.mem_filter.mpr ⟨List.mem_reverse.mpr hstripped, by decide⟩
  rw [isUuid, isInt16_of_dot lib hdigits, Bool.and_false]

end Uuid

end TimeshiftBuffer

end DispatcharrPvr
