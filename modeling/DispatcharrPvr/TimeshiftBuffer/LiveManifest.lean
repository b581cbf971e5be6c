import DispatcharrPvr.Lib.Containers
import Mathlib.Algebra.GroupWithZero.Nat
import Mathlib.Algebra.Ring.Int.Defs

/-!
# TimeshiftBuffer.LiveManifest

The byte-addressable manifest of a channel's buffer (`_get_live_manifest` of
`plugin.py`): the playlist's text half, the sizes of the files it lists, the
cache that spares measuring them again, and the offsets.

Text is a list of characters.  What Python does with a floating-point duration
and with an identifier's text are parameters; a call reads the disk at one
moment.
-/

namespace DispatcharrPvr

namespace TimeshiftBuffer

/-- A Python `str`. -/
abbrev Text := List Char

instance : LawfulBEq Text := inferInstance

/-- What the plugin takes from Python's library without looking inside. -/
structure Python where
  /-- Whether `uuid.UUID` takes the text. -/
  isUuid : Text → Bool
  /-- `int(round(float(text) * 1000))`, `none` where it raises. -/
  milliseconds : Text → Option Int

/-! ## text -/

/-- `str.isspace` of one character. -/
def isSpace (c : Char) : Bool :=
  (9 ≤ c.val && c.val ≤ 13) || (28 ≤ c.val && c.val ≤ 32) || c.val == 0x85 || c.val == 0xA0 ||
    c.val == 0x1680 || (0x2000 ≤ c.val && c.val ≤ 0x200A) || c.val == 0x2028 ||
    c.val == 0x2029 || c.val == 0x202F || c.val == 0x205F || c.val == 0x3000

/-- `str.strip`. -/
def strip (text : Text) : Text :=
  ((text.dropWhile isSpace).reverse.dropWhile isSpace).reverse

/-- What `int` skips around a number: `str.isspace` without the separators of
ASCII. -/
def isIntSpace (c : Char) : Bool := isSpace c && !(28 ≤ c.val && c.val ≤ 31)

/-- A text without them. -/
def stripInt (text : Text) : Text :=
  ((text.dropWhile isIntSpace).reverse.dropWhile isIntSpace).reverse

/-- The value of decimal digits behind ones worth `value`, an underscore
standing between two of them. -/
def decimalDigits (value : Nat) : Text → Option Nat
  | [] => some value
  | '_' :: c :: rest =>
      if c.isDigit then decimalDigits (10 * value + (c.toNat - '0'.toNat)) rest else none
  | c :: rest =>
      if c.isDigit then decimalDigits (10 * value + (c.toNat - '0'.toNat)) rest else none

/-- `sys.int_info.default_max_str_digits`. -/
def maxStrDigits : Nat := 4300

/-- `int` of unsigned text; more digits than `maxStrDigits` raise. -/
def parseDigits (text : Text) : Option Nat :=
  if (text.filter Char.isDigit).length > maxStrDigits then none
  else
    match text with
    | [] => none
    | c :: rest => if c.isDigit then decimalDigits (c.toNat - '0'.toNat) rest else none

/-- `int(text)`, for the ASCII digits. -/
def parseInt (text : Text) : Option Int :=
  match stripInt text with
  | '-' :: digits => (parseDigits digits).map fun n => -n
  | '+' :: digits => (parseDigits digits).map fun n => n
  | digits => (parseDigits digits).map fun n => n

/-! ## `_parse_live_playlist_lines` -/

/-- `#EXT-X-MEDIA-SEQUENCE:`. -/
def mediaSequenceTag : Text := "#EXT-X-MEDIA-SEQUENCE:".toList

/-- `#EXTINF:`. -/
def extinfTag : Text := "#EXTINF:".toList

/-- One entry of the playlist: a `(sequence, filename, duration_ms)` triple. -/
structure ListedSegment where
  sequence : Int
  segName : Text
  durationMs : Int
deriving DecidableEq, Repr

/-- The number behind the first media sequence tag, 0 without a readable one. -/
def parseMediaSequence : List Text → Int
  | [] => 0
  | line :: rest =>
      if mediaSequenceTag.isPrefixOf line then
        (parseInt (strip (line.drop mediaSequenceTag.length))).getD 0
      else parseMediaSequence rest

section Parse

variable (py : Python)

/-- The duration of an `#EXTINF:` line, read up to the first comma. -/
def extinfDuration (line : Text) : Int :=
  (py.milliseconds ((line.drop extinfTag.length).takeWhile (· ≠ ','))).getD 0

/-- The loop of `_parse_live_playlist_lines`. -/
def parseSegments (mediaSequence : Int) : Nat → List Text → List ListedSegment
  | listIndex, line :: uri :: rest =>
      if extinfTag.isPrefixOf line ∧ ¬ ['#'].isPrefixOf uri then
        -- the pair is skipped as a whole when no name follows
        if strip uri = [] then parseSegments mediaSequence listIndex rest
        else ⟨mediaSequence + listIndex, strip uri, extinfDuration py line⟩ ::
          parseSegments mediaSequence (listIndex + 1) rest
      else parseSegments mediaSequence listIndex (uri :: rest)
  | _, _ => []

/-- `_parse_live_playlist_lines`. -/
def parseLivePlaylistLines (lines : List Text) : Int × List ListedSegment :=
  (parseMediaSequence lines, parseSegments py (parseMediaSequence lines) 0 lines)

/-- An entry's sequence is the media sequence plus its place among the entries. -/
theorem parseSegments_sequence (mediaSequence : Int) (listIndex : Nat) (lines : List Text)
    {k : Nat} {seg : ListedSegment}
    (h : (parseSegments py mediaSequence listIndex lines)[k]? = some seg) :
    seg.sequence = mediaSequence + (listIndex + k : Nat) := by
  induction listIndex, lines using parseSegments.induct generalizing k with
  | case1 listIndex line uri rest htag hblank ih =>
      rw [parseSegments, if_pos htag, if_pos hblank] at h
      exact ih h
  | case2 listIndex line uri rest htag hname ih =>
      rw [parseSegments, if_pos htag, if_neg hname] at h
      cases k with
      | zero =>
          obtain rfl := Option.some.inj h
          simp
      | succ k =>
          rw [List.getElem?_cons_succ] at h
          have := ih h
          omega
  | case3 listIndex line uri rest htag ih =>
      rw [parseSegments, if_neg htag] at h
      exact ih h
  | case4 listIndex lines hshort =>
      rw [parseSegments] at h
      · simp at h
      · exact hshort

theorem parseLivePlaylistLines_sequence (lines : List Text) {k : Nat} {seg : ListedSegment}
    (h : (parseLivePlaylistLines py lines).2[k]? = some seg) :
    seg.sequence = (parseLivePlaylistLines py lines).1 + k := by
  have hseq := parseSegments_sequence py (parseMediaSequence lines) 0 lines h
  rwa [Nat.zero_add] at hseq

end Parse

/-! ## the sizes -/

/-- An entry with its size: a value of `by_sequence`, under its key. -/
structure SizedSegment where
  sequence : Int
  segName : Text
  size : Nat
  durationMs : Int
deriving DecidableEq, Repr

namespace SizedSegment

/-- The playlist's part of an entry. -/
def listed (seg : SizedSegment) : ListedSegment := ⟨seg.sequence, seg.segName, seg.durationMs⟩

end SizedSegment

/-- `seg_name`'s size in the channel's directory, `none` where `stat` raises. -/
abbrev Files := Text → Option Nat

/-- The size of one entry: from the cache when it holds the sequence under the
same name, never for the newest. -/
def segmentSize (oldBySequence : List SizedSegment) (files : Files) (newest : Bool)
    (seg : ListedSegment) : Option Nat :=
  match if newest then none else oldBySequence.find? (·.sequence = seg.sequence) with
  | some reusable => if reusable.segName = seg.segName then some reusable.size else files seg.segName
  | none => files seg.segName

/-- The entries with their sizes, without those whose file is gone. -/
def sizedSegments (oldBySequence : List SizedSegment) (files : Files) :
    List ListedSegment → List SizedSegment
  | [] => []
  | seg :: rest =>
      match segmentSize oldBySequence files rest.isEmpty seg with
      | some size =>
          ⟨seg.sequence, seg.segName, size, seg.durationMs⟩ ::
            sizedSegments oldBySequence files rest
      | none => sizedSegments oldBySequence files rest

/-- The entries measured afresh. -/
abbrev measuredSegments (files : Files) (parsed : List ListedSegment) : List SizedSegment :=
  sizedSegments [] files parsed

section Sizes

variable {old : List SizedSegment} {files : Files} {parsed : List ListedSegment}

@[simp] theorem segmentSize_newest (seg : ListedSegment) :
    segmentSize old files true seg = files seg.segName := rfl

@[simp] theorem segmentSize_nil (newest : Bool) (seg : ListedSegment) :
    segmentSize [] files newest seg = files seg.segName := by
  cases newest <;> rfl

/-- A size is the file's own, unless the cache's differs. -/
theorem segmentSize_eq {newest : Bool} {seg : ListedSegment}
    (hcurrent : newest = false → ∀ reused ∈ old, reused.segName = seg.segName →
      files seg.segName = some reused.size) :
    segmentSize old files newest seg = files seg.segName := by
  cases newest with
  | true => rfl
  | false =>
      simp only [segmentSize, Bool.false_eq_true, if_false]
      split
      · rename_i reusable hfind
        split
        · rename_i hname
          exact (hcurrent rfl reusable (List.mem_of_find?_eq_some hfind) hname).symm
        · rfl
      · rfl

/-- The sizes are the files' own when those the cache has for all entries but
the newest are. -/
theorem sizedSegments_eq_measured
    (hcurrent : ∀ seg ∈ parsed.dropLast, ∀ reused ∈ old, reused.segName = seg.segName →
      files seg.segName = some reused.size) :
    sizedSegments old files parsed = measuredSegments files parsed := by
  induction parsed with
  | nil => rfl
  | cons seg rest ih =>
      have hsize : segmentSize old files rest.isEmpty seg = files seg.segName := by
        refine segmentSize_eq fun hmore => hcurrent seg ?_
        rw [List.dropLast_cons_of_ne_nil (by simpa using hmore)]
        exact List.mem_cons_self ..
      have hrest : sizedSegments old files rest = measuredSegments files rest := by
        refine ih fun seg' hseg' => hcurrent seg' ?_
        have hne : rest ≠ [] := by rintro rfl; simp at hseg'
        rw [List.dropLast_cons_of_ne_nil hne]
        exact List.mem_cons_of_mem _ hseg'
      simp only [measuredSegments, sizedSegments, hsize, segmentSize_nil, hrest]

/-- The listed segments whose file is there. -/
def present (files : Files) (parsed : List ListedSegment) : List ListedSegment :=
  parsed.filter fun seg => (files seg.segName).isSome

/-- The entries measured are the listed ones whose file is there. -/
theorem map_listed_measuredSegments :
    (measuredSegments files parsed).map SizedSegment.listed = present files parsed := by
  induction parsed with
  | nil => rfl
  | cons seg rest ih =>
      simp only [measuredSegments, present, sizedSegments, segmentSize_nil,
        List.filter_cons] at ih ⊢
      cases hsize : files seg.segName with
      | none => simpa using ih
      | some size => simpa [SizedSegment.listed] using ih

/-- Those whose file is gone are not measured. -/
theorem measuredSegments_present :
    measuredSegments files (present files parsed) = measuredSegments files parsed := by
  induction parsed with
  | nil => rfl
  | cons seg rest ih =>
      simp only [measuredSegments, present, sizedSegments, segmentSize_nil,
        List.filter_cons] at ih ⊢
      cases hsize : files seg.segName with
      | none => simpa using ih
      | some size => simpa [sizedSegments, hsize] using ih

/-- A measured entry is a listed one with its file's size. -/
theorem mem_measuredSegments {seg : SizedSegment} (h : seg ∈ measuredSegments files parsed) :
    seg.listed ∈ parsed ∧ files seg.segName = some seg.size := by
  induction parsed with
  | nil => simp [sizedSegments] at h
  | cons first rest ih =>
      simp only [measuredSegments, sizedSegments, segmentSize_nil] at h ih
      split at h
      · rename_i size hsize
        rcases List.mem_cons.mp h with rfl | h
        · exact ⟨List.mem_cons_self .., hsize⟩
        · exact ⟨List.mem_cons_of_mem _ (ih h).1, (ih h).2⟩
      · exact ⟨List.mem_cons_of_mem _ (ih h).1, (ih h).2⟩

/-- Entries whose sizes are their files' are what measuring them again gives. -/
theorem measuredSegments_map_listed {segs : List SizedSegment}
    (hsizes : ∀ seg ∈ segs, files seg.segName = some seg.size) :
    measuredSegments files (segs.map SizedSegment.listed) = segs := by
  induction segs with
  | nil => rfl
  | cons seg rest ih =>
      have hrest := ih fun seg' hseg' => hsizes seg' (List.mem_cons_of_mem _ hseg')
      have hsize := hsizes seg (List.mem_cons_self ..)
      simp only [measuredSegments, List.map_cons, sizedSegments, segmentSize_nil,
        SizedSegment.listed, hsize] at hrest ⊢
      rw [hrest]

end Sizes

/-! ## the offsets -/

/-- A segment of the manifest. -/
structure ManifestSegment where
  filename : Text
  sequence : Int
  byteOffset : Nat
  byteSize : Nat
  timeOffsetMs : Int
  durationMs : Int
deriving DecidableEq, Repr

/-- The answer's manifest. -/
structure Manifest where
  mediaSequence : Int
  segments : List ManifestSegment
  totalBytes : Nat
  totalDurationMs : Int
  /-- `ffmpeg` has exited, so that nothing more will be appended. -/
  ended : Bool
deriving DecidableEq, Repr

/-- The loop that lays the segments end to end. -/
def placeSegments (cumulativeBytes : Nat) (cumulativeMs : Int) :
    List SizedSegment → List ManifestSegment
  | [] => []
  | seg :: rest =>
      ⟨seg.segName, seg.sequence, cumulativeBytes, seg.size, cumulativeMs, seg.durationMs⟩ ::
        placeSegments (cumulativeBytes + seg.size) (cumulativeMs + seg.durationMs) rest

/-- The manifest of the entries found. -/
def manifestOf (mediaSequence : Int) (ended : Bool) (ordered : List SizedSegment) : Manifest where
  mediaSequence := mediaSequence
  segments := placeSegments 0 0 ordered
  totalBytes := (ordered.map (·.size)).sum
  totalDurationMs := (ordered.map (·.durationMs)).sum
  ended := ended

/-- The segments lie end to end from 0, and the totals are where they end. -/
structure Manifest.Contiguous (m : Manifest) : Prop where
  offsets : ∀ k seg, m.segments[k]? = some seg →
    seg.byteOffset = ((m.segments.take k).map (·.byteSize)).sum ∧
      seg.timeOffsetMs = ((m.segments.take k).map (·.durationMs)).sum
  totalBytes : m.totalBytes = (m.segments.map (·.byteSize)).sum
  totalDurationMs : m.totalDurationMs = (m.segments.map (·.durationMs)).sum

@[simp] theorem map_byteSize_placeSegments (bytes : Nat) (ms : Int) (ordered : List SizedSegment) :
    (placeSegments bytes ms ordered).map (·.byteSize) = ordered.map (·.size) := by
  induction ordered generalizing bytes ms with
  | nil => rfl
  | cons seg rest ih => simp [placeSegments, ih]

@[simp] theorem map_durationMs_placeSegments (bytes : Nat) (ms : Int)
    (ordered : List SizedSegment) :
    (placeSegments bytes ms ordered).map (·.durationMs) = ordered.map (·.durationMs) := by
  induction ordered generalizing bytes ms with
  | nil => rfl
  | cons seg rest ih => simp [placeSegments, ih]

/-- A segment is placed behind all before it. -/
theorem placeSegments_offsets (bytes : Nat) (ms : Int) (ordered : List SizedSegment) {k : Nat}
    {seg : ManifestSegment} (h : (placeSegments bytes ms ordered)[k]? = some seg) :
    seg.byteOffset = bytes + (((placeSegments bytes ms ordered).take k).map (·.byteSize)).sum ∧
      seg.timeOffsetMs =
        ms + (((placeSegments bytes ms ordered).take k).map (·.durationMs)).sum := by
  induction ordered generalizing bytes ms k with
  | nil => simp [placeSegments] at h
  | cons first rest ih =>
      cases k with
      | zero =>
          obtain rfl := Option.some.inj h
          simp
      | succ k =>
          simp only [placeSegments, List.getElem?_cons_succ] at h
          obtain ⟨hbytes, hms⟩ := ih _ _ h
          simp only [placeSegments, List.take_succ_cons, List.map_cons, List.sum_cons]
          constructor
          · rw [hbytes]; omega
          · rw [hms]; omega

/-- **Every manifest is laid out end to end from 0.** -/
theorem manifestOf_contiguous (mediaSequence : Int) (ended : Bool) (ordered : List SizedSegment) :
    (manifestOf mediaSequence ended ordered).Contiguous where
  offsets k seg h := by
    have := placeSegments_offsets 0 0 ordered h
    simpa [manifestOf] using this
  totalBytes := by simp [manifestOf]
  totalDurationMs := by simp [manifestOf]

/-- A segment of the manifest is one of the entries. -/
theorem mem_placeSegments {bytes : Nat} {ms : Int} {ordered : List SizedSegment}
    {seg : ManifestSegment} (h : seg ∈ placeSegments bytes ms ordered) :
    ∃ entry ∈ ordered, entry.sequence = seg.sequence ∧ entry.segName = seg.filename := by
  induction ordered generalizing bytes ms with
  | nil => simp [placeSegments] at h
  | cons first rest ih =>
      rcases List.mem_cons.mp h with rfl | h
      · exact ⟨first, List.mem_cons_self .., rfl, rfl⟩
      · obtain ⟨entry, hentry, heq⟩ := ih h
        exact ⟨entry, List.mem_cons_of_mem _ hentry, heq⟩

/-! ## the cache -/

/-- A value of `_manifest_cache`. -/
structure CachedManifest where
  instanceToken : Option Text
  playlistMtimeNs : Int
  playlistSize : Nat
  mediaSequence : Int
  /-- `by_sequence`, in list order. -/
  bySequence : List SizedSegment
deriving DecidableEq, Repr

/-- `_manifest_cache`, least recently written first. -/
abbrev ManifestCache := List (Text × CachedManifest)

/-- `_MANIFEST_CACHE_MAX_ENTRIES`. -/
def manifestCacheMaxEntries : Nat := 16

/-- `_remember_manifest`. -/
def rememberManifest (cache : ManifestCache) (channelUuid : Text) (entry : CachedManifest) :
    ManifestCache :=
  Containers.touch manifestCacheMaxEntries Prod.fst cache (channelUuid, entry)

/-- `_forget_cached_manifest`. -/
def forgetCachedManifest (cache : ManifestCache) (channelUuid : Text) : ManifestCache :=
  cache.filter fun cached => cached.1 ≠ channelUuid

/-- An entry's `by_sequence` changed in place. -/
def updateBySequence (cache : ManifestCache) (channelUuid : Text)
    (bySequence : List SizedSegment) : ManifestCache :=
  cache.map fun cached =>
    if cached.1 = channelUuid then (cached.1, { cached.2 with bySequence }) else cached

/-- The entry of a channel that may be used for a buffer with this token, an
empty token being no token. -/
def trustedManifest (cache : ManifestCache) (channelUuid : Text) (bufferToken : Option Text) :
    Option CachedManifest :=
  ((cache.find? (·.1 = channelUuid)).map Prod.snd).filter fun cached =>
    bufferToken.any (· ≠ []) && cached.instanceToken == bufferToken

/-! ## `_get_live_manifest` -/

/-- `live.m3u8` with what `stat` says of it, and its lines. -/
structure Playlist where
  mtimeNs : Int
  size : Nat
  lines : List Text
deriving DecidableEq, Repr

/-- A channel's directory as a call finds it. -/
structure ChannelDir where
  playlist : Option Playlist := none
  files : Files := fun _ => none
  /-- The lines of `ffmpeg.log`. -/
  ffmpegLog : List Text := []

/-- What the manifest needs of a buffer's state. -/
structure ManifestState where
  channelUuid : Text
  storagePath : Text
  accessToken : Option Text
  pid : Option Nat
deriving DecidableEq, Repr

/-- The tracked process, if any, is running: `_is_process_alive` with the
process table's answer for it. -/
def ManifestState.isProcessAlive (state : ManifestState) (running : Bool) : Bool :=
  state.pid.any (· ≠ 0) && running

/-- Why there is no manifest: a `RuntimeError`, the one for a bad identifier
among them, or a `BufferFailedError` over the lines of the log. -/
inductive ManifestError where
  | runtime (message : String)
  | invalidChannelUuid (channelUuid : Text)
  | bufferFailed (ffmpegLog : List Text)
deriving DecidableEq, Repr

/-- The first two checks' message. -/
def playlistNotFoundMessage : String :=
  "live playlist not found -- the buffer may not have produced any segments yet"

/-- The last check's message. -/
def noSegmentsMessage : String :=
  "no segments currently available -- the buffer may be too new"

/-- Nothing has changed since the entry was made: the entries are its own, the
newest alone measured again.  What it holds afterwards comes second. -/
def remeasureNewest (files : Files) (bySequence : List SizedSegment) :
    List SizedSegment × List SizedSegment :=
  match bySequence.getLast? with
  | none => ([], bySequence)
  | some newest =>
      match files newest.segName with
      | none => (bySequence.dropLast, bySequence)
      | some size =>
          let ordered := bySequence.dropLast ++ [{ newest with size }]
          (ordered, ordered)

/-- The part under `_manifest_cache_lock`: the media sequence and the entries,
and the cache afterwards. -/
def orderedSegments (py : Python) (state : ManifestState) (playlist : Playlist) (files : Files)
    (cache : ManifestCache) : (Int × List SizedSegment) × ManifestCache :=
  let cached := trustedManifest cache state.channelUuid state.accessToken
  match cached.filter fun c =>
      c.playlistMtimeNs == playlist.mtimeNs && c.playlistSize == playlist.size with
  | some unchanged =>
      let (ordered, bySequence) := remeasureNewest files unchanged.bySequence
      ((unchanged.mediaSequence, ordered), updateBySequence cache state.channelUuid bySequence)
  | none =>
      let (mediaSequence, parsed) := parseLivePlaylistLines py playlist.lines
      let oldBySequence := (cached.map (·.bySequence)).getD []
      let ordered := sizedSegments oldBySequence files parsed
      ((mediaSequence, ordered),
        rememberManifest cache state.channelUuid
          { instanceToken := state.accessToken
            playlistMtimeNs := playlist.mtimeNs
            playlistSize := playlist.size
            mediaSequence
            bySequence := ordered })

/-- The manifest of what was found, if anything was. -/
def manifestAnswer (ended : Bool) (found : Int × List SizedSegment) :
    Except ManifestError Manifest :=
  if found.2 = [] then .error (.runtime noSegmentsMessage)
  else .ok (manifestOf found.1 ended found.2)

/-- `_get_live_manifest` against the channel's directory, if there is one. -/
def getLiveManifest (py : Python) (state : ManifestState) (running : Bool)
    (dir : Option ChannelDir) (cache : ManifestCache) :
    Except ManifestError Manifest × ManifestCache :=
  if ¬ py.isUuid state.channelUuid then (.error (.invalidChannelUuid state.channelUuid), cache)
  else
    match dir.bind (·.playlist) with
    | none =>
        -- cold-starting, or dead before its first segment
        if state.isProcessAlive running then (.error (.runtime playlistNotFoundMessage), cache)
        else (.error (.bufferFailed ((dir.map (·.ffmpegLog)).getD [])), cache)
    | some playlist =>
        let ended := state.pid.any (· ≠ 0) && !state.isProcessAlive running
        let files := (dir.map (·.files)).getD fun _ => none
        let found := orderedSegments py state playlist files cache
        (manifestAnswer ended found.1, found.2)

end TimeshiftBuffer

end DispatcharrPvr
