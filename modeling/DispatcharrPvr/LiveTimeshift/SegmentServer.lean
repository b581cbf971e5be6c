import DispatcharrPvr.LiveTimeshift.Conduct
import DispatcharrPvr.TimeshiftBuffer.RangeResponses
import DispatcharrPvr.TimeshiftBuffer.SegmentRequest

/-!
# LiveTimeshift.SegmentServer

A fetch of the live timeshift against the plugin's own file server: the request
that `ReadLiveTimeshiftStream` makes (`BuildTimeshiftSegmentUrl`, its range), the
reply of `do_GET`, and what the read takes the reply for.  What comes of the two
is what a look at the file itself would say (`live_segment_fetch`).

The reply reaches the client as it is sent, or the transfer fails.
-/

namespace DispatcharrPvr

open TimeshiftBuffer TimeshiftBuffer.FileServer

namespace LiveClient

/-! ## the request -/

/-- Bytes as `http.server` reads them, by ISO 8859-1. -/
def latin1 (bytes : ByteString) : Text := bytes.map fun b => Char.ofNat b.toNat

/-- What is asked of the host of an `http` URL: all that is behind it. -/
def requestTarget (url : ByteString) : ByteString :=
  (url.drop 7).dropWhile fun b => b != 47 && b != 63 && b != 35

/-- The request for a part of a segment. -/
def segmentRequest (read : SegmentRead) : FileRequest where
  path := latin1 (requestTarget read.url)
  range := some (latin1 (ascii "bytes=" ++ read.range))

/-- What a stream was told of the buffer that it plays. -/
structure Plays (s : LiveStream) (host : ByteString) (port : Nat)
    (channelUuid token viewerId : Text) : Prop where
  named : ∀ b ∈ host, b ≠ 47 ∧ b ≠ 63 ∧ b ≠ 35
  base : s.segmentBaseUrl =
    buildTimeshiftSegmentBaseUrl host port (Utf8.encode ('/' :: channelUuid ++ ['/']))
  token : s.accessToken = Utf8.encode token
  viewer : s.viewerId = Utf8.encode viewerId

/-! ## the reply -/

/-- What `http.server` writes by itself. -/
structure Stamp where
  reason : ByteString
  server : ByteString
  date : ByteString

/-- What a request meets at the file server. -/
structure SegmentServer where
  lib : UrlLibrary
  buffers : StoredBuffers lib
  root : Option FileServer.Path
  /-- At the look at the file. -/
  storage : Storage
  /-- At its opening. -/
  opened : Storage
  sending : Sending
  stamp : Stamp

/-- `do_GET`: the type of a file and what is sent of it, or the answer without one. -/
def SegmentServer.doGet (server : SegmentServer) (request : FileRequest) :
    Except Answer (Text × RangeResponse) :=
  match resolveAndAuthorize server.lib server.buffers server.root server.storage request.path with
  | .error answer => .error answer
  | .ok target =>
      match server.opened target with
      | .file content =>
          .ok (contentTypeFor server.lib (target.getLast?.getD []),
            rangeResponse request.range content.length server.sending)
      | _ => .error (.error 404)

/-- Text as it is sent. -/
def onWire (text : Text) : ByteString := text.map fun c => c.toNat.toUInt8

/-- `send_header`. -/
def headerLine (name : String) (value : ByteString) : ByteString :=
  ascii name ++ (ascii ": " ++ value ++ [13, 10])

/-- The lines of a reply's head. -/
def Stamp.head (stamp : Stamp) (contentType : Text) (response : RangeResponse) : List ByteString :=
  let contentRange := response.contentRange.toList.map fun range =>
    headerLine "Content-Range" (onWire range)
  let fields :=
    match response.contentLength with
    | none => contentRange
    | some remaining =>
        [headerLine "Content-Type" (onWire contentType),
          headerLine "Accept-Ranges" (ascii "bytes"),
          headerLine "Content-Length" (toByteString remaining)] ++ contentRange ++
        [headerLine "Cache-Control" (ascii "no-store")]
  [ascii "HTTP/1.0 " ++ (toByteString response.status ++ 32 :: stamp.reason ++ [13, 10]),
    headerLine "Server" stamp.server, headerLine "Date" stamp.date] ++ fields ++ [[13, 10]]

/-- A transfer that is through has brought the reply: its status, the total that its
head tells, and all of the body that it announced. -/
def SegmentServer.Brings (server : SegmentServer) (request : FileRequest) (choice : Choice) : Prop :=
  choice.transferOk = true →
    match server.doGet request with
    | .ok (contentType, response) =>
        choice.httpCode = response.status ∧
          choice.serverReportedTotal =
            (server.stamp.head contentType response).foldl recordingHeaderCallback (-1) ∧
          choice.chunks.flatten = response.sent.bytes ∧
          ∀ length ∈ response.contentLength, response.sent.bytes.length = length
    | .error (.error status) => choice.httpCode = status
    | .error _ => False

/-! ## the file itself -/

/-- What a look at the file says of a read: the file of that name is read, if the
token is the channel's, and is the one that was listed, if its size is. -/
def SegmentServer.directly (server : SegmentServer) (read : SegmentRead) (channelUuid token : Text)
    (path : FileServer.Path) : LiveSegmentOutcome :=
  match server.buffers.get channelUuid with
  | .error _ => .unexpectedStatus
  | .ok state =>
      if state.bind (·.accessToken) = some token then
        match server.storage path, server.opened path with
        | .file _, .file content =>
            if content.length ≤ read.offsetInSegment then .unexpectedStatus
            else if content.length = read.segment.byteSize then .ok
            else .sizeMismatch
        | _, _ => .segmentGone
      else .unexpectedStatus

/-- The answer that a read has of a transfer. -/
def fetchAnswer (read : SegmentRead) (choice : Choice) : FetchAnswer where
  transferOk := choice.transferOk
  httpCode := choice.httpCode
  serverReportedTotal := choice.serverReportedTotal
  written :=
    (FixedBufferSink.transfer { capacity := read.wantSize } choice.chunks).1.written

/-- It is what a transfer ends with. -/
theorem exec_perform (host : ByteString) (t : CallId) (c : Client) (session : Nat)
    (read : SegmentRead) (choice : Choice) :
    Client.exec host t c (.perform session read) choice = some (c, .ok (fetchAnswer read choice)) := rfl

/-- What a read takes an answer for. -/
def takenFor (read : SegmentRead) (answer : FetchAnswer) : LiveSegmentOutcome :=
  classifyLiveSegmentResponse answer.transferOk answer.httpCode read.offsetInSegment
    answer.serverReportedTotal read.segment.byteSize

/-! ## what the request asks for -/

section Request

theorem latin1_onWire {text : Text} (h : ∀ c ∈ text, c.val < 0x80) : latin1 (onWire text) = text := by
  rw [latin1, onWire, List.map_map]
  refine (List.map_congr_left fun c hmem => ?_).trans (List.map_id text)
  have hlt := h c hmem
  rw [UInt32.lt_iff_toNat_lt] at hlt
  have hbyte : c.toNat.toUInt8.toNat = c.toNat := by
    rw [Nat.toUInt8, UInt8.toNat_ofNat']
    exact Nat.mod_eq_of_lt (Nat.lt_trans hlt (by decide))
  rw [Function.comp_apply, hbyte, Char.ofNat_toNat, id]

theorem onWire_append (a b : Text) : onWire (a ++ b) = onWire a ++ onWire b := List.map_append

variable {s : LiveStream} {host : ByteString} {port : Nat} {channelUuid token viewerId : Text}
  {name : Text}

/-- What is behind the host begins with the route. -/
theorem requestTarget_baseUrl (hnamed : ∀ b ∈ host, b ≠ 47 ∧ b ≠ 63 ∧ b ≠ 35) (port : Nat)
    (rest : ByteString) :
    requestTarget (ascii "http://" ++ formatHostForUrl host ++ ascii ":" ++ toByteString port ++
      47 :: rest) = 47 :: rest := by
  have hauthority : ∀ b ∈ formatHostForUrl host ++ ascii ":" ++ toByteString port,
      (b != 47 && b != 63 && b != 35) = true := by
    intro b hmem
    rw [List.mem_append, List.mem_append, toByteString_natCast] at hmem
    rcases hmem with (hmem | hmem) | hmem
    · have hhost : b ∈ host ∨ b = 91 ∨ b = 93 := by
        unfold formatHostForUrl at hmem
        split at hmem
        · exact .inl hmem
        · rcases List.mem_append.mp hmem with hmem | hmem
          · exact (List.mem_cons.mp hmem).elim (fun h => .inr (.inl h)) .inl
          · exact .inr (.inr (List.mem_singleton.mp hmem))
      rcases hhost with hmem | rfl | rfl
      · simp [hnamed b hmem]
      all_goals decide
    · obtain rfl := List.mem_singleton.mp hmem
      decide
    · have hdigit := Decimal.isDigit_iff.mp (List.all_eq_true.mp (Decimal.digits_spec port).1 b hmem)
      have hne : b ≠ 47 ∧ b ≠ 63 ∧ b ≠ 35 := by
        refine ⟨?_, ?_, ?_⟩ <;> (rintro rfl; revert hdigit; decide)
      simp [hne]
  have hdrop : (ascii "http://" ++ formatHostForUrl host ++ ascii ":" ++ toByteString port ++
      47 :: rest).drop 7 =
        (formatHostForUrl host ++ ascii ":" ++ toByteString port) ++ 47 :: rest := by
    rw [List.append_assoc, List.append_assoc, List.append_assoc, List.drop_left' (by decide)]
    simp
  rw [requestTarget, hdrop, List.dropWhile_append_of_pos hauthority,
    List.dropWhile_cons_of_neg (by decide)]

/-- **The request is for the channel's file**, with the token and the viewer. -/
theorem path_segmentRequest (hplays : Plays s host port channelUuid token viewerId)
    (hrequest : IsSegmentRequest channelUuid name token viewerId) :
    latin1 (requestTarget (buildTimeshiftSegmentUrl s.segmentBaseUrl (Utf8.encode name)
        s.accessToken s.viewerId false)) =
      segmentRoute channelUuid name ++ '?' :: segmentQuery token viewerId := by
  have hascii : ∀ c ∈ segmentRoute channelUuid name ++ '?' :: segmentQuery token viewerId,
      c.val < 0x80 := fun c hmem => isRequestChar_ascii (hrequest.request_chars c hmem)
  have hwire : ∀ text : Text, (∀ c ∈ text, isRequestChar c = true) →
      Utf8.encode text = onWire text := fun text h =>
    Utf8.encode_of_ascii fun c hmem => isRequestChar_ascii (h c hmem)
  have hroute : onWire (segmentRoute channelUuid name) =
      47 :: onWire channelUuid ++ 47 :: onWire name := by
    simp [segmentRoute, onWire]
  have hquery : onWire (segmentQuery token viewerId) = ascii "token=" ++ onWire token ++
      if viewerId = [] then [] else ascii "&viewer_id=" ++ onWire viewerId := by
    rw [segmentQuery_eq, onWire_append, onWire_append]
    split
    · rfl
    · rw [onWire_append]
      rfl
  have hbase : s.segmentBaseUrl = ascii "http://" ++ formatHostForUrl host ++ ascii ":" ++
      toByteString port ++ (47 :: onWire channelUuid ++ [47]) := by
    have hprefix : Utf8.encode ('/' :: channelUuid ++ ['/']) =
        47 :: onWire channelUuid ++ [47] := by
      rw [hwire _ fun c hmem => ?_]
      · simp [onWire]
      · simp only [List.cons_append, List.mem_cons, List.mem_append, List.not_mem_nil,
          or_false] at hmem
        rcases hmem with rfl | hmem | rfl
        · decide
        · exact isRequestChar_of_isPlainChar (hrequest.channel.chars c hmem)
        · decide
    rw [hplays.base, buildTimeshiftSegmentBaseUrl, hprefix]
  have hname : Utf8.encode name = onWire name := hwire name fun c hmem => by
    rcases hrequest.servable.chars.2 c hmem with hplain | rfl
    · exact isRequestChar_of_isPlainChar hplain
    · decide
  have htoken : s.accessToken = onWire token := hplays.token.trans
    (hwire token fun c hmem => isRequestChar_of_isPlainChar (hrequest.token.chars c hmem))
  have hurl : buildTimeshiftSegmentUrl s.segmentBaseUrl (Utf8.encode name) s.accessToken
      s.viewerId false = ascii "http://" ++ formatHostForUrl host ++ ascii ":" ++
        toByteString port ++ 47 :: (onWire channelUuid ++ 47 :: (onWire name ++
          63 :: onWire (segmentQuery token viewerId))) := by
    have hmark : ascii "?token=" = 63 :: ascii "token=" := rfl
    rw [buildTimeshiftSegmentUrl, hbase, hname, htoken, hquery, hmark]
    by_cases hnone : viewerId = []
    · have hviewer : s.viewerId.isEmpty = true := by rw [hplays.viewer, hnone]; rfl
      simp [hnone, hviewer]
    · have hviewer : s.viewerId = onWire viewerId := hplays.viewer.trans
        (hwire viewerId fun c hmem =>
          isRequestChar_of_isPlainChar ((hrequest.viewer.resolve_left hnone).chars c hmem))
      have hsome : (onWire viewerId).isEmpty = false := by simpa [onWire] using hnone
      simp [hnone, hviewer, hsome]
  have htarget : 47 :: (onWire channelUuid ++ 47 :: (onWire name ++
      63 :: onWire (segmentQuery token viewerId))) =
        onWire (segmentRoute channelUuid name ++ '?' :: segmentQuery token viewerId) := by
    rw [onWire_append, hroute]
    simp [onWire]
  rw [hurl, requestTarget_baseUrl hplays.named, htarget, latin1_onWire hascii]

/-! ## what part it asks for -/

/-- The digits of a number, as text. -/
theorem number_toDigits (n : Nat) : number (Nat.toDigits 10 n) = n :=
  Nat.ofDigitChars_toDigits (by decide) (by decide)

theorem isDecimal_toDigits {n : Nat} (h : n ≤ 9223372036854775807) :
    IsDecimal (Nat.toDigits 10 n) where
  some := Nat.toDigits_ne_nil
  digits d hmem := Nat.isDigit_of_mem_toDigits (by decide) (by decide) hmem
  few := by
    have hshort : (Nat.toDigits 10 n).length ≤ 19 := by
      rw [Nat.length_toDigits_le_iff (by decide) (by decide)]
      omega
    exact Nat.le_trans hshort (by decide)

/-- **The range is the part of the segment that is wanted.** -/
theorem range_segmentRequest {read : SegmentRead} {offset want : Nat}
    (hoffset : read.offsetInSegment = offset) (hwant : read.wantSize = want) (hpos : 0 < want) :
    latin1 (ascii "bytes=" ++ read.range) =
      (RangeSpec.closed (Nat.toDigits 10 offset) (Nat.toDigits 10 (offset + want - 1))).header := by
  have hdigits : ∀ n : Nat, latin1 (toByteString n) = Nat.toDigits 10 n := by
    intro n
    rw [toByteString_natCast]
    refine latin1_onWire fun c hmem => isRequestChar_ascii (isRequestChar_of_isPlainChar ?_)
    have hdigit : c.isDigit = true := Nat.isDigit_of_mem_toDigits (by decide) (by decide) hmem
    simp [isPlainChar, Char.isAlphanum, hdigit]
  have hlast : read.offsetInSegment + read.wantSize - 1 = ((offset + want - 1 : Nat) : Int) := by
    omega
  have happend : ∀ a b, latin1 (a ++ b) = latin1 a ++ latin1 b := fun a b => List.map_append
  rw [SegmentRead.range, hlast, hoffset, happend, happend, happend, hdigits, hdigits,
    RangeSpec.header_eq, RangeSpec.text]
  have hunit : latin1 (ascii "bytes=") = "bytes=".toList := by decide
  have hdash : latin1 (ascii "-") = ['-'] := by decide
  rw [hunit, hdash, List.append_assoc, List.singleton_append]

/-- What `_parse_range` makes of it. -/
theorem parseRange_segmentRequest {offset want : Nat} (hfits : offset + want ≤ 9223372036854775807)
    (hpos : 0 < want) (fileSize : Nat) :
    parseRange (some (RangeSpec.closed (Nat.toDigits 10 offset)
        (Nat.toDigits 10 (offset + want - 1))).header) fileSize =
      if fileSize ≤ offset then .unsatisfiable
      else .part offset (min (offset + want - 1) (fileSize - 1)) := by
  have hdecimal : (RangeSpec.closed (Nat.toDigits 10 offset)
      (Nat.toDigits 10 (offset + want - 1))).Decimal :=
    ⟨isDecimal_toDigits (by omega), isDecimal_toDigits (by omega)⟩
  rw [RangeSpec.header_eq, parseRange_text fun c => RangeSpec.text_digits hdecimal,
    rangeEnds_text hdecimal, RangeSpec.ends, number_toDigits, number_toDigits, Range.ofEnds]
  by_cases hshort : fileSize ≤ offset
  · rw [if_pos hshort, if_pos (by omega)]
  · rw [if_neg hshort, if_neg (by omega)]
    congr 1
    omega

end Request

/-! ## what the reply says -/

theorem onWire_toString (n : Nat) : onWire (toString n).toList = Decimal.digits n := by
  rw [← toByteString_natCast]
  rfl

section Reply

variable {stamp : Stamp} {contentType : Text} {response : RangeResponse}

theorem line_range (start stop fileSize : Nat) :
    headerLine "Content-Range" (onWire s!"bytes {start}-{stop}/{fileSize}".toList) =
      ascii "Content-Range:" ++
        (ascii " bytes " ++ Decimal.digits start ++ ascii "-" ++ Decimal.digits stop) ++
        47 :: (Decimal.digits fileSize ++ [13, 10]) := by
  have htext : s!"bytes {start}-{stop}/{fileSize}".toList =
      "bytes ".toList ++ (toString start).toList ++ "-".toList ++ (toString stop).toList ++
        "/".toList ++ (toString fileSize).toList := by
    simp only [String.toList_append]
    rfl
  have hname : ascii "Content-Range:" = ascii "Content-Range" ++ [58] := rfl
  have hcolon : ascii ": " = [58, 32] := rfl
  have hunit : ascii " bytes " = 32 :: onWire "bytes ".toList := rfl
  have hdash : ascii "-" = onWire "-".toList := rfl
  have hslash : onWire "/".toList = [47] := rfl
  rw [htext, headerLine, hname, hcolon, hunit, hdash]
  simp only [onWire_append, onWire_toString, hslash, List.append_assoc, List.cons_append,
    List.nil_append]

/-- The other fields of a reply. -/
def otherFields : List String :=
  ["Server", "Date", "Content-Type", "Accept-Ranges", "Content-Length", "Cache-Control"]

theorem recordingHeaderCallback_other {name : String} (h : name ∈ otherFields) (total : Int)
    (value : ByteString) : recordingHeaderCallback total (headerLine name value) = total := by
  have hnames : ∀ name ∈ otherFields, (ascii name).length ≤ 14 ∧
      toLower (ascii name) ≠ (ascii "content-range:").take (ascii name).length := by decide
  exact recordingHeaderCallback_of_ne (hnames name h).1 (hnames name h).2 total _

/-- Only its range tells the total of a reply. -/
theorem total_head_part {fileSize start stop : Nat} (hsize : fileSize ≤ 9223372036854775807)
    (h : response.IsPart fileSize start stop) :
    (stamp.head contentType response).foldl recordingHeaderCallback (-1) = fileSize := by
  obtain ⟨-, -, -, hlength, hrange⟩ := h
  have hstatus : ∀ total rest, recordingHeaderCallback total (ascii "HTTP/1.0 " ++ rest) = total :=
    recordingHeaderCallback_of_ne (by decide) (by decide)
  have hend : ∀ total, recordingHeaderCallback total [13, 10] = total :=
    fun total => if_neg (by decide)
  have htotal : ∀ total, recordingHeaderCallback total (headerLine "Content-Range"
      (onWire s!"bytes {start}-{stop}/{fileSize}".toList)) = fileSize := fun total => by
    rw [line_range, recordingHeaderCallback_range hsize]
  rw [Stamp.head, hlength, hrange]
  simp (disch := decide) only [Option.toList_some, List.map_cons, List.map_nil, List.cons_append,
    List.nil_append, List.foldl_cons, List.foldl_nil, hstatus, htotal, hend,
    recordingHeaderCallback_other]

end Reply

/-! ## a fetch -/

/-- What a stream chooses to fetch. -/
theorem choose_eq_fetch {s : LiveStream} {size : Nat} {gaveUp : Bool} {read : SegmentRead}
    (h : s.choose size gaveUp = .fetch read) :
    read.url = buildTimeshiftSegmentUrl s.segmentBaseUrl
        (Utf8.encode read.segment.filename.toList) s.accessToken s.viewerId false ∧
      0 ≤ read.offsetInSegment ∧ 0 < read.wantSize ∧
      read.offsetInSegment + read.wantSize ≤ read.segment.byteSize := by
  unfold LiveStream.choose at h
  split at h
  · contradiction
  split at h
  · contradiction
  next seg hfind =>
  split at h
  · contradiction
  next wantSize hwant =>
  obtain rfl := Next.fetch.inj h
  refine ⟨rfl, ?_⟩
  unfold segmentReadSize at hwant
  split at hwant
  · next hin =>
      obtain rfl := Option.some.inj hwant
      unfold SegmentRead.offsetInSegment
      dsimp only
      omega
  · contradiction

/-- A file that is the one that was listed has been let through to. -/
theorem SegmentServer.directly_eq_ok {server : SegmentServer} {read : SegmentRead}
    {channelUuid token : Text} {path : FileServer.Path} {content : ByteString}
    (hopened : server.opened path = .file content)
    (h : server.directly read channelUuid token path = .ok) :
    (∃ state found, server.buffers.get channelUuid = .ok state ∧
      state.bind (·.accessToken) = some token ∧ server.storage path = .file found) ∧
    ¬ content.length ≤ read.offsetInSegment ∧ content.length = read.segment.byteSize := by
  unfold SegmentServer.directly at h
  split at h
  · cases h
  next state hget =>
  split at h
  · next htoken =>
      split at h
      · next found opened hstored hopened' =>
          obtain rfl := Entry.file.inj (hopened.symm.trans hopened')
          split at h
          · cases h
          next hlong =>
          split at h
          · next hsame => exact ⟨⟨state, found, hget, htoken, hstored⟩, hlong, hsame⟩
          · cases h
      · cases h
  · cases h

/-- What a transfer that is through comes to for a read of a file: what the read takes
it for, with the bytes that a part brings. -/
structure ComesTo (server : SegmentServer) (read : SegmentRead) (path : FileServer.Path)
    (offset : Nat) (choice : Choice) (outcome : LiveSegmentOutcome) : Prop where
  taken : takenFor read (fetchAnswer read choice) = outcome
  part : choice.httpCode = 206 → ∃ content, server.opened path = .file content ∧
    choice.chunks.flatten <+: content.drop offset ∧
    (takenFor read (fetchAnswer read choice) = .ok → content.length = read.segment.byteSize ∧
      (fetchAnswer read choice).written = (content.drop offset).take read.wantSize)
  whole : choice.httpCode ≠ 200

section Statuses

variable {server : SegmentServer} {read : SegmentRead} {path : FileServer.Path} {offset : Nat}
  {choice : Choice} {outcome : LiveSegmentOutcome} {status : Nat}

/-- Another status brings no part. -/
theorem comesTo_of_status (hcode : choice.httpCode = status) (hbare : status ≠ 206 ∧ status ≠ 200)
    (htaken : takenFor read (fetchAnswer read choice) = outcome) :
    ComesTo server read path offset choice outcome where
  taken := htaken
  part hpart := by omega
  whole := by omega

theorem takenFor_gone (hok : choice.transferOk = true) (hcode : choice.httpCode = (404 : Nat)) :
    takenFor read (fetchAnswer read choice) = .segmentGone := by
  simp [takenFor, fetchAnswer, hok, hcode, classifyLiveSegmentResponse]

theorem takenFor_refused (hok : choice.transferOk = true) (hcode : choice.httpCode = status)
    (hrefused : status ∉ [200, 206, 404]) :
    takenFor read (fetchAnswer read choice) = .unexpectedStatus := by
  simp only [List.mem_cons, List.not_mem_nil, or_false, not_or] at hrefused
  obtain ⟨hwhole, hpart, hgone⟩ := hrefused
  have hwhole' : (status : Int) ≠ 200 := by omega
  have hpart' : (status : Int) ≠ 206 := by omega
  have hgone' : (status : Int) ≠ 404 := by omega
  simp [takenFor, fetchAnswer, hok, hcode, classifyLiveSegmentResponse, serverIgnoredRangeRequest,
    hwhole', hpart', hgone']

end Statuses

/-- What is asked of the file server, and what it is asked of. -/
structure Fetches (server : SegmentServer) (read : SegmentRead) (root : FileServer.Path)
    (channelUuid token : Text) (offset : Nat) : Prop where
  storage : server.root = some root
  path : ∃ viewerId, (segmentRequest read).path =
      segmentRoute channelUuid read.segment.filename.toList ++ '?' :: segmentQuery token viewerId ∧
    IsSegmentRequest channelUuid read.segment.filename.toList token viewerId
  begins : read.offsetInSegment = offset
  pos : 0 < read.wantSize
  fits : offset + read.wantSize ≤ read.segment.byteSize
  int64 : IsInt64 read.segment.byteSize

namespace Fetches

variable {server : SegmentServer} {read : SegmentRead} {root : FileServer.Path}
  {channelUuid token : Text} {offset : Nat}

/-- **Spec of `do_GET`** on a read's request. -/
theorem doGet (h : Fetches server read root channelUuid token offset) :
    server.doGet (segmentRequest read) =
      match server.buffers.get channelUuid with
      | .error _ => .error (.error 503)
      | .ok state =>
          if state.bind (·.accessToken) = some token then
            match server.storage (root ++ [channelUuid, read.segment.filename.toList]),
              server.opened (root ++ [channelUuid, read.segment.filename.toList]) with
            | .file _, .file content =>
                .ok (contentTypeFor server.lib read.segment.filename.toList,
                  rangeResponse (segmentRequest read).range content.length server.sending)
            | .unreadable, _ => .error .dropped
            | _, _ => .error (.error 404)
          else .error (.error 403) := by
  obtain ⟨viewerId, hpath, hrequest⟩ := h.path
  have hlast : (root ++ [channelUuid, read.segment.filename.toList]).getLast?.getD [] =
      read.segment.filename.toList := by simp
  rw [SegmentServer.doGet, hpath, h.storage, resolveAndAuthorize_segment hrequest]
  cases server.buffers.get channelUuid with
  | error e => rfl
  | ok state =>
      dsimp only
      by_cases htoken : state.bind (·.accessToken) = some token
      · rw [if_pos htoken, if_pos htoken]
        cases server.storage (root ++ [channelUuid, read.segment.filename.toList]) with
        | file found =>
            dsimp only
            rw [hlast]
            cases server.opened (root ++ [channelUuid, read.segment.filename.toList]) <;> rfl
        | missing => rfl
        | directory size => rfl
        | unreadable => rfl
      · rw [if_neg htoken, if_neg htoken]

/-- What `_parse_range` makes of its range. -/
theorem parseRange (h : Fetches server read root channelUuid token offset) (fileSize : Nat) :
    parseRange (segmentRequest read).range fileSize =
      if fileSize ≤ offset then .unsatisfiable
      else .part offset (min (offset + read.wantSize - 1) (fileSize - 1)) := by
  have hfits : offset + read.wantSize ≤ 9223372036854775807 := by
    have hmax : read.segment.byteSize ≤ 9223372036854775807 := h.int64.2
    have hle := h.fits
    omega
  have hrange : (segmentRequest read).range = some (RangeSpec.closed (Nat.toDigits 10 offset)
      (Nat.toDigits 10 (offset + read.wantSize - 1))).header :=
    congrArg some (range_segmentRequest h.begins rfl h.pos)
  rw [hrange, parseRange_segmentRequest hfits h.pos]

/-- The listed size holds the part, so that a file of it announces the whole part. -/
theorem announced (h : Fetches server read root channelUuid token offset) {content : ByteString}
    (hsame : (content.length : Int) = read.segment.byteSize) :
    min (offset + read.wantSize - 1) (content.length - 1) - offset + 1 = read.wantSize := by
  have hfits := h.fits
  have hpos := h.pos
  omega

/-- **A file that is there**: how the reply to the read is taken, and which bytes of
the file it brings. -/
theorem file (h : Fetches server read root channelUuid token offset) {content : ByteString}
    (hsize : content.length ≤ 9223372036854775807)
    (hseen : ∀ k, (server.sending.turn k).seen <+: content ∨
      content <+: (server.sending.turn k).seen) {contentType : Text} {choice : Choice}
    (hcode : choice.httpCode =
      (rangeResponse (segmentRequest read).range content.length server.sending).status)
    (htotal : choice.serverReportedTotal = (server.stamp.head contentType
      (rangeResponse (segmentRequest read).range content.length server.sending)).foldl
        recordingHeaderCallback (-1))
    (hbody : choice.chunks.flatten =
      (rangeResponse (segmentRequest read).range content.length server.sending).sent.bytes)
    (hall : ∀ length ∈
        (rangeResponse (segmentRequest read).range content.length server.sending).contentLength,
      (rangeResponse (segmentRequest read).range content.length
        server.sending).sent.bytes.length = length)
    (hok : choice.transferOk = true) :
    (if content.length ≤ offset then
      choice.httpCode = 416 ∧ takenFor read (fetchAnswer read choice) = .unexpectedStatus
    else if content.length = read.segment.byteSize then
      choice.httpCode = 206 ∧ takenFor read (fetchAnswer read choice) = .ok ∧
        (fetchAnswer read choice).written = (content.drop offset).take read.wantSize
    else choice.httpCode = 206 ∧ takenFor read (fetchAnswer read choice) = .sizeMismatch) ∧
    choice.chunks.flatten <+: content.drop offset := by
  have hkind := rangeResponse_kind (segmentRequest read).range content server.sending
  have hsends := sends_rangeResponse (segmentRequest read).range content server.sending
  have hbegins := hsends.begins hseen
  rw [h.parseRange] at hkind hbegins
  by_cases hshort : content.length ≤ offset
  · rw [if_pos hshort] at hkind hbegins ⊢
    have hstatus : choice.httpCode = 416 := by rw [hcode, hkind.1]; rfl
    refine ⟨⟨hstatus, ?_⟩, ?_⟩
    · have hcode' : choice.httpCode = (416 : Nat) := hstatus
      exact takenFor_refused hok hcode' (by decide)
    · rw [hbody, hkind.2.2.2]
      exact List.nil_prefix
  · rw [if_neg hshort] at hkind hbegins ⊢
    have hstatus : choice.httpCode = 206 := by rw [hcode, hkind.1]; rfl
    have htotal' : choice.serverReportedTotal = content.length := by
      rw [htotal, total_head_part hsize hkind]
    have htaken : takenFor read (fetchAnswer read choice) =
        if content.length = read.segment.byteSize then .ok else .sizeMismatch := by
      have hpos : (0 : Int) ≤ content.length := Int.natCast_nonneg _
      simp [takenFor, fetchAnswer, hok, hstatus, htotal', classifyLiveSegmentResponse,
        serverIgnoredRangeRequest, hpos]
    have hlength := hall _ hkind.2.2.2.1
    refine ⟨?_, ?_⟩
    · by_cases hsame : content.length = read.segment.byteSize
      · rw [if_pos hsame]
        rw [if_pos hsame] at htaken
        refine ⟨hstatus, htaken, ?_⟩
        have hannounced := h.announced hsame
        have hfits := h.fits
        have hbytes : choice.chunks.flatten = (content.drop offset).take read.wantSize := by
          rw [Range.bytes, hannounced] at hbegins
          rw [hannounced] at hlength
          rw [hbody]
          refine hbegins.eq_of_length ?_
          rw [hlength, List.length_take, List.length_drop]
          omega
        rw [fetchAnswer, FixedBufferSink.transfer_written _ _ (Nat.zero_le _)]
        dsimp only
        rw [List.nil_append, hbytes, List.take_take, Nat.min_self]
      · rw [if_neg hsame]
        rw [if_neg hsame] at htaken
        exact ⟨hstatus, htaken⟩
    · rw [hbody]
      exact hbegins.trans (List.take_prefix _ _)

/-- **What a fetch comes to** when the file is there. -/
theorem comesTo_file (h : Fetches server read root channelUuid token offset)
    {content : ByteString}
    (hopened : server.opened (root ++ [channelUuid, read.segment.filename.toList]) = .file content)
    (hsize : content.length ≤ 9223372036854775807)
    (hseen : ∀ k, (server.sending.turn k).seen <+: content ∨
      content <+: (server.sending.turn k).seen) {contentType : Text} {choice : Choice}
    (hcode : choice.httpCode =
      (rangeResponse (segmentRequest read).range content.length server.sending).status)
    (htotal : choice.serverReportedTotal = (server.stamp.head contentType
      (rangeResponse (segmentRequest read).range content.length server.sending)).foldl
        recordingHeaderCallback (-1))
    (hbody : choice.chunks.flatten =
      (rangeResponse (segmentRequest read).range content.length server.sending).sent.bytes)
    (hall : ∀ length ∈
        (rangeResponse (segmentRequest read).range content.length server.sending).contentLength,
      (rangeResponse (segmentRequest read).range content.length
        server.sending).sent.bytes.length = length)
    (hok : choice.transferOk = true) :
    ComesTo server read (root ++ [channelUuid, read.segment.filename.toList]) offset choice
      (if content.length ≤ read.offsetInSegment then .unexpectedStatus
       else if content.length = read.segment.byteSize then .ok
       else .sizeMismatch) := by
  obtain ⟨hcases, hprefix⟩ := h.file hsize hseen hcode htotal hbody hall hok
  rw [h.begins]
  by_cases hshort : content.length ≤ offset
  · rw [if_pos hshort] at hcases
    rw [if_pos (by omega)]
    exact comesTo_of_status hcases.1 (by decide) hcases.2
  · rw [if_neg hshort] at hcases
    rw [if_neg (by omega)]
    by_cases hsame : (content.length : Int) = read.segment.byteSize
    · rw [if_pos hsame] at hcases ⊢
      exact
        { taken := hcases.2.1
          part := fun _ => ⟨content, hopened, hprefix, fun _ => ⟨hsame, hcases.2.2⟩⟩
          whole := by simp [hcases.1] }
    · rw [if_neg hsame] at hcases ⊢
      refine
        { taken := hcases.2
          part := fun _ => ⟨content, hopened, hprefix, fun hne => ?_⟩
          whole := by simp [hcases.1] }
      rw [hcases.2] at hne
      contradiction

/-- **What a fetch comes to** is what a look at the file says. -/
theorem comesTo_directly (h : Fetches server read root channelUuid token offset)
    (hfile : ∀ content, server.opened (root ++ [channelUuid, read.segment.filename.toList]) =
      .file content → content.length ≤ 9223372036854775807 ∧
        ∀ k, (server.sending.turn k).seen <+: content ∨ content <+: (server.sending.turn k).seen)
    {choice : Choice} (hbrings : server.Brings (segmentRequest read) choice)
    (hok : choice.transferOk = true) :
    ComesTo server read (root ++ [channelUuid, read.segment.filename.toList]) offset choice
      (server.directly read channelUuid token
        (root ++ [channelUuid, read.segment.filename.toList])) := by
  have hreply := hbrings hok
  rw [h.doGet] at hreply
  unfold SegmentServer.directly
  cases hget : server.buffers.get channelUuid with
  | error e =>
      rw [hget] at hreply
      exact comesTo_of_status hreply (by decide) (takenFor_refused hok hreply (by decide))
  | ok state =>
      rw [hget] at hreply
      dsimp only at hreply ⊢
      by_cases htoken : state.bind (·.accessToken) = some token
      · rw [if_pos htoken] at hreply ⊢
        have hgone : choice.httpCode = (404 : Nat) → ComesTo server read
            (root ++ [channelUuid, read.segment.filename.toList]) offset choice .segmentGone :=
          fun hcode => comesTo_of_status hcode (by decide) (takenFor_gone hok hcode)
        cases hstored : server.storage (root ++ [channelUuid, read.segment.filename.toList]) with
        | missing => rw [hstored] at hreply; exact hgone hreply
        | directory size => rw [hstored] at hreply; exact hgone hreply
        | unreadable => rw [hstored] at hreply; exact hreply.elim
        | file found =>
            rw [hstored] at hreply
            cases hopened : server.opened (root ++ [channelUuid, read.segment.filename.toList]) with
            | missing => rw [hopened] at hreply; exact hgone hreply
            | directory size => rw [hopened] at hreply; exact hgone hreply
            | unreadable => rw [hopened] at hreply; exact hgone hreply
            | file content =>
                rw [hopened] at hreply
                obtain ⟨hcode, htotal, hbody, hall⟩ := hreply
                obtain ⟨hsize, hseen⟩ := hfile content hopened
                exact h.comesTo_file hopened hsize hseen hcode htotal hbody hall hok
      · rw [if_neg htoken] at hreply ⊢
        exact comesTo_of_status hreply (by decide) (takenFor_refused hok hreply (by decide))

/-- **The part can be had** when nothing ends the sending early. -/
theorem fetchable (h : Fetches server read root channelUuid token offset) {content : ByteString}
    (hopened : server.opened (root ++ [channelUuid, read.segment.filename.toList]) = .file content)
    (hdirectly : server.directly read channelUuid token
      (root ++ [channelUuid, read.segment.filename.toList]) = .ok)
    (hundisturbed : Undisturbed server.sending (server.sending.deadline read.wantSize) content) :
    ∃ choice : Choice, choice.transferOk = true ∧ server.Brings (segmentRequest read) choice := by
  obtain ⟨⟨state, found, hget, htoken, hstored⟩, hlong, hsame⟩ :=
    SegmentServer.directly_eq_ok hopened hdirectly
  rw [h.begins] at hlong
  have hfits := h.fits
  have hkind := rangeResponse_kind (segmentRequest read).range content server.sending
  have hsends := sends_rangeResponse (segmentRequest read).range content server.sending
  have hannounced := h.announced hsame
  rw [h.parseRange, if_neg (by omega)] at hkind hsends
  rw [Range.bytes, hannounced] at hsends
  have hlength : ((content.drop offset).take read.wantSize).length = read.wantSize := by
    rw [List.length_take, List.length_drop]
    omega
  have hbytes := hsends.whole (by rw [hlength]; exact hundisturbed)
  have hreply : server.doGet (segmentRequest read) =
      .ok (contentTypeFor server.lib read.segment.filename.toList,
        rangeResponse (segmentRequest read).range content.length server.sending) := by
    rw [h.doGet, hget]
    dsimp only
    rw [if_pos htoken, hstored, hopened]
  generalize rangeResponse (segmentRequest read).range content.length server.sending = response
    at hkind hbytes hreply
  refine ⟨
    { transferOk := true
      httpCode := response.status
      serverReportedTotal := (server.stamp.head
        (contentTypeFor server.lib read.segment.filename.toList) response).foldl
          recordingHeaderCallback (-1)
      chunks := [response.sent.bytes] }, rfl, fun _ => ?_⟩
  rw [hreply]
  refine ⟨rfl, rfl, List.append_nil _, fun length hmem => ?_⟩
  rw [hkind.2.2.2.1, hannounced] at hmem
  rw [hbytes, hlength]
  exact Option.some.inj hmem

end Fetches

/-- **A live fetch is a look at the file**: for a read that a stream chooses of one
of the plugin's buffers, whatever the file server meets, a transfer that is through
is taken for what the channel's file says of the read, and is as supposed; the
bytes that the read keeps are those of the file, and it can have them. -/
theorem live_segment_fetch {s : LiveStream} {size : Nat} {gaveUp : Bool} {read : SegmentRead}
    {host : ByteString} {port : Nat} {channelUuid token viewerId : Text} {server : SegmentServer}
    {root : FileServer.Path} (hread : s.choose size gaveUp = .fetch read)
    (hplays : Plays s host port channelUuid token viewerId)
    (hrequest : IsSegmentRequest channelUuid read.segment.filename.toList token viewerId)
    (hint : IsInt64 read.segment.byteSize) (hroot : server.root = some root)
    (hfile : ∀ content, server.opened (root ++ [channelUuid, read.segment.filename.toList]) =
      .file content → content.length ≤ 9223372036854775807 ∧
        ∀ k, (server.sending.turn k).seen <+: content ∨ content <+: (server.sending.turn k).seen) :
    let path := root ++ [channelUuid, read.segment.filename.toList]
    (∀ choice, server.Brings (segmentRequest read) choice → choice.transferOk = true →
      takenFor read (fetchAnswer read choice) = server.directly read channelUuid token path ∧
      (takenFor read (fetchAnswer read choice) = .ok → ∃ content,
        server.opened path = .file content ∧ content.length = read.segment.byteSize ∧
        (fetchAnswer read choice).written =
          (content.drop read.offsetInSegment.toNat).take read.wantSize) ∧
      ∀ content c session, (∀ bytes, server.opened path = .file bytes →
          content session read.segment.filename = bytes) →
        supposed content c (.perform session read) choice) ∧
    ∀ content, server.opened path = .file content →
      server.directly read channelUuid token path = .ok →
      Undisturbed server.sending (server.sending.deadline read.wantSize) content →
      ∃ choice : Choice, choice.transferOk = true ∧ server.Brings (segmentRequest read) choice := by
  intro path
  obtain ⟨hurl, hoffset, hpos, hfits⟩ := choose_eq_fetch hread
  obtain ⟨offset, hbegins⟩ := Int.eq_ofNat_of_zero_le hoffset
  have hfetches : Fetches server read root channelUuid token offset :=
    { storage := hroot
      path := ⟨viewerId, by
        rw [segmentRequest, hurl]
        exact path_segmentRequest hplays hrequest, hrequest⟩
      begins := hbegins
      pos := hpos
      fits := by rw [← hbegins]; exact hfits
      int64 := hint }
  refine ⟨fun choice hbrings hok => ?_, fun content hopened hdirectly hundisturbed =>
    hfetches.fetchable hopened hdirectly hundisturbed⟩
  obtain ⟨htaken, hpart, hwhole⟩ := hfetches.comesTo_directly hfile hbrings hok
  refine ⟨htaken, fun htakenOk => ?_, fun content c session hcontent _ => ⟨fun hcode => ?_,
    fun hcode => absurd hcode hwhole⟩⟩
  · obtain ⟨-, hstatus, -⟩ := classifyLiveSegmentResponse_eq_ok_iff.mp htakenOk
    have hcode : choice.httpCode = 206 := hstatus.resolve_right fun h => hwhole h.1
    obtain ⟨content, hopened, -, hwritten⟩ := hpart hcode
    rw [hbegins]
    exact ⟨content, hopened, hwritten htakenOk⟩
  · obtain ⟨bytes, hopened, hprefix, -⟩ := hpart hcode
    rw [hcontent bytes hopened, hbegins]
    exact hprefix

/-! ## the end of a segment -/

/-- A stream within the first channel's segment. -/
def endStream : LiveStream where
  segments := [{ filename := "seg_00007.ts", sequence := 7, byteSize := 3 }]
  totalBytes := 3
  isOpen := true
  accessToken := Utf8.encode "one".toList
  segmentBaseUrl :=
    buildTimeshiftSegmentBaseUrl (ascii "pvr") 9192 (Utf8.encode ('/' :: ones ++ ['/']))
  fileServerPort := 9192
  position := 1

/-- What it fetches. -/
def endRead : SegmentRead where
  position := 1
  segment := { filename := "seg_00007.ts", sequence := 7, byteSize := 3 }
  wantSize := 2
  url := buildTimeshiftSegmentUrl endStream.segmentBaseUrl (Utf8.encode "seg_00007.ts".toList)
    endStream.accessToken [] false

/-- The segment is there and is sent at once. -/
def endServer : SegmentServer where
  lib := plainLibrary
  buffers := twoBuffers
  root := some ["data".toList]
  storage := twoSegments []
  opened := twoSegments []
  sending := { startedAt := 0, turn := fun _ => { now := 1, seen := [1, 2, 3] } }
  stamp := { reason := ascii "Partial Content", server := ascii "TimeshiftBufferHTTP/0.1", date := [] }

theorem live_segment_fetch_end : ∃ choice : Choice,
    choice.transferOk = true ∧ (fetchAnswer endRead choice).written = [2, 3] := by
  have hopened : endServer.opened (["data".toList] ++ [ones, "seg_00007.ts".toList]) =
      .file [1, 2, 3] := by decide +kernel
  have hnamed : (ascii "pvr").all (fun b => decide (b ≠ 47 ∧ b ≠ 63 ∧ b ≠ 35)) = true := by decide
  have hplays : Plays endStream (ascii "pvr") 9192 ones "one".toList [] :=
    { named := fun b hmem => of_decide_eq_true (List.all_eq_true.mp hnamed b hmem)
      base := rfl
      token := rfl
      viewer := rfl }
  have hrequest : IsSegmentRequest ones endRead.segment.filename.toList "one".toList [] :=
    { channel := ⟨by decide, List.all_eq_true.mp (by decide)⟩
      name := by decide
      token := ⟨by decide, List.all_eq_true.mp (by decide)⟩
      viewer := .inl rfl }
  have hdirectly : endServer.directly endRead ones "one".toList
      (["data".toList] ++ [ones, "seg_00007.ts".toList]) = .ok := by decide +kernel
  have hfile : ∀ content, endServer.opened (["data".toList] ++ [ones, "seg_00007.ts".toList]) =
      .file content → content.length ≤ 9223372036854775807 ∧
        ∀ k, (endServer.sending.turn k).seen <+: content ∨
          content <+: (endServer.sending.turn k).seen := by
    intro content hcontent
    obtain rfl := Entry.file.inj (hopened.symm.trans hcontent)
    exact ⟨by decide, fun _ => .inl List.prefix_rfl⟩
  have hundisturbed : Undisturbed endServer.sending (endServer.sending.deadline endRead.wantSize)
      [1, 2, 3] :=
    { inTime := fun _ => by
        show (1 : Rat) < 0 + 60 + (2 : Nat) / (32 * 1024)
        grind
      written := fun _ => rfl
      seen := fun _ => List.prefix_rfl }
  obtain ⟨hcomes, hcan⟩ := live_segment_fetch (s := endStream)
    (show endStream.choose 10 false = .fetch endRead from rfl) hplays hrequest
    (by decide) (show endServer.root = some ["data".toList] from rfl) hfile
  obtain ⟨choice, hok, hbrings⟩ := hcan [1, 2, 3] hopened hdirectly hundisturbed
  obtain ⟨htaken, hbytes, -⟩ := hcomes choice hbrings hok
  obtain ⟨content, hcontent, -, hwritten⟩ := hbytes (htaken.trans hdirectly)
  obtain rfl := Entry.file.inj (hopened.symm.trans hcontent)
  exact ⟨choice, hok, hwritten⟩

end LiveClient

end DispatcharrPvr
