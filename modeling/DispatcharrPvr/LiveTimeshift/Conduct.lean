import DispatcharrPvr.LiveTimeshift.Calls

/-!
# LiveTimeshift.Conduct

What holds of a client throughout, what a call may rely on the others to keep,
and what it promises of each command.  `Effect` says once what a step can do;
the invariant and what the others rely on are derived from that.
-/

namespace DispatcharrPvr

namespace LiveClient

open Interleaving LiveStream ReadLog Layout

/-! ## what a record says -/

/-- The counted failures since the last delivery, the latest first. -/
def streak : List Sign → List Int
  | [] => []
  | .failed counted :: signs => counted :: streak signs
  | .delivered :: _ => []
  | .fatalManifest :: signs => streak signs
  | .misread _ :: signs => streak signs

/-- At some time the failures since the last delivery were enough, and the first of
them is long enough ago. -/
def LongStreak (signs : List Sign) (clock : Int) : Prop :=
  ∃ then', then' <:+ signs ∧ kMaxConsecutiveSegmentFetchFailures ≤ (streak then').length ∧
    ∃ start ∈ (streak then').getLast?, kMinSegmentFetchFailureStreak ≤ milliseconds (clock - start)

/-- The signs by which a stream may be given up. -/
def Condemned (signs : List Sign) (clock : Int) : Prop :=
  .fatalManifest ∈ signs ∨ .misread .rangeIgnored ∈ signs ∨ .misread .sizeMismatch ∈ signs ∨
    LongStreak signs clock

theorem milliseconds_mono {a b : Int} (h : a ≤ b) : milliseconds a ≤ milliseconds b :=
  Int.tdiv_le_tdiv (by decide) h

theorem Condemned.mono {signs signs' : List Sign} {clock clock' : Int} (h : Condemned signs clock)
    (hsigns : signs <:+ signs') (hclock : clock ≤ clock') : Condemned signs' clock' := by
  rcases h with h | h | h | ⟨then', hthen, hlong, start, hstart, hspan⟩
  · exact .inl (hsigns.subset h)
  · exact .inr (.inl (hsigns.subset h))
  · exact .inr (.inr (.inl (hsigns.subset h)))
  · refine .inr (.inr (.inr ⟨then', hthen.trans hsigns, hlong, start, hstart, ?_⟩))
    have := milliseconds_mono (Int.sub_le_sub_right hclock start)
    omega

namespace Record

/-- What the plugin's files hold at a position, by the session they are read in. -/
def byteAt (content : Nat → String → ByteString) (r : Record) (position : Int) : Option UInt8 :=
  (findSegmentContainingPosition position r.tape).bind fun seg =>
    (content r.session seg.filename)[(position - seg.byteOffset).toNat]?

/-- All that was handed over is what the files hold there. -/
def Faithful (content : Nat → String → ByteString) (r : Record) : Prop :=
  ReadLog.Faithful (r.byteAt content) 0 r.moves

/-- What was handed over to a call, each time. -/
def deliveriesTo (t : CallId) (r : Record) : List ByteString := ReadLog.deliveriesTo t r.moves

theorem deliveriesTo_move_jump (t : CallId) (r : Record) (position : Int) :
    (r.move (.jump position)).deliveriesTo t = r.deliveriesTo t := by
  simp [deliveriesTo, move]

theorem deliveriesTo_move_deliver (t t' : CallId) (r : Record) (items : ByteString) :
    (r.move (.deliver t' items)).deliveriesTo t =
      r.deliveriesTo t ++ if t' = t then [items] else [] := by
  simp [deliveriesTo, move]

/-- More segments change nothing of what was there. -/
theorem byteAt_append {content : Nat → String → ByteString} (r r' : Record)
    (hsession : r'.session = r.session) (htape : r.tape <+: r'.tape) {p : Int} {b : UInt8}
    (h : r.byteAt content p = some b) : r'.byteAt content p = some b := by
  obtain ⟨news, hnews⟩ := htape
  obtain ⟨seg, hseg, hbyte⟩ := Option.bind_eq_some_iff.mp h
  have hfound : findSegmentContainingPosition p r'.tape = some seg := by
    rw [← hnews]
    unfold findSegmentContainingPosition at hseg ⊢
    rw [List.find?_append, hseg]
    rfl
  rw [byteAt, hfound, hsession]
  exact hbyte

end Record

/-- What was handed over to a call, in whichever session. -/
def Client.deliveriesTo (t : CallId) (c : Client) : List ByteString :=
  c.past.reverse.flatMap (Record.deliveriesTo t) ++ c.record.deliveriesTo t

theorem Client.mem_deliveriesTo_iff {t : CallId} {c : Client} {bytes : ByteString} :
    bytes ∈ c.deliveriesTo t ↔ ∃ r ∈ c.record :: c.past, .deliver t bytes ∈ r.moves := by
  simp [deliveriesTo, Record.deliveriesTo, ReadLog.mem_deliveriesTo_iff, or_comm]

/-- What a call handed back. -/
def Client.answersOf (t : CallId) (c : Client) : List (CallId × Int × ByteString) :=
  c.answers.filter (·.1 == t)

/-! ## the invariant -/

/-- What holds of a client throughout. -/
structure Inv (content : Nat → String → ByteString) (c : Client) : Prop where
  held : ∃ merged, Held c.stream.toLiveTimeshiftStreamState merged
  tape : ∃ lo, InRow lo c.record.tape c.stream.totalBytes
  /-- What is held is the end of the tape. -/
  suffix : c.stream.segments <:+ c.record.tape
  position : c.stream.position = endOf 0 c.record.moves
  faithful : ∀ r ∈ c.record :: c.past, r.Faithful content
  session : c.record.session = c.session
  /-- A stream is open before its open is through only while that is under way. -/
  placed : c.stream.isOpen = true → c.record.placed = true ∨ ∃ t, c.switching = some (t, true)
  failures : c.stream.consecutiveSegmentFetchFailures = (streak c.record.signs).length
  firstFailure : c.stream.consecutiveSegmentFetchFailures ≠ 0 →
    (streak c.record.signs).getLast? = some c.stream.firstSegmentFetchFailureAt
  fatal : c.stream.fatal = true → Condemned c.record.signs c.clock
  /-- What was handed back was handed over. -/
  answers : ∀ a ∈ c.answers, a.2.1 = a.2.2.length ∧ a.2.2 ∈ c.deliveriesTo a.1 ∨
    a.2.2 = [] ∧ a.2.1 ≤ 0

/-! ## what the calls know and promise -/

/-- The session is still this one, and its open is through. -/
def Placed (session : Nat) (c : Client) : Prop := c.session = session → c.record.placed = true

/-- The part of a segment that was chosen is one of this session's. -/
structure Chosen (session : Nat) (read : SegmentRead) (c : Client) : Prop where
  placed : Placed session c
  tape : c.session = session → read.segment ∈ c.record.tape
  offset : 0 ≤ read.offsetInSegment
  fits : read.offsetInSegment + read.wantSize ≤ read.segment.byteSize

/-- The answer to a fetch is the front of what was asked for, when it is taken for
that. -/
def Answered (content : Nat → String → ByteString) (session : Nat) (read : SegmentRead)
    (answer : FetchAnswer) : Prop :=
  classifyLiveSegmentResponse answer.transferOk answer.httpCode read.offsetInSegment
      answer.serverReportedTotal read.segment.byteSize = .ok →
    answer.written.length ≤ read.wantSize ∧
      answer.written <+:
        (content session read.segment.filename).drop read.offsetInSegment.toNat

/-- A call that is opening or closing a stream, or not. -/
def Switching (t : CallId) (how : Option Bool) (c : Client) : Prop :=
  ∀ isOpening, c.switching = some (t, isOpening) ↔ how = some isOpening

/-- Which of the two mutexes a call holds. -/
structure Holds (t : CallId) (curl refresh : Bool) (c : Client) : Prop where
  curl : c.curlOwner = some t ↔ curl = true
  refresh : c.refreshOwner = some t ↔ refresh = true

/-- What may become of a client while a call looks on, whichever mutexes it holds. -/
structure Sees (t : CallId) (c c' : Client) : Prop where
  clock : c.clock ≤ c'.clock
  session : c.session ≤ c'.session
  signs : c'.session = c.session → c.record.signs <:+ c'.record.signs
  placed : c'.session = c.session → c.record.placed = true →
    c'.record.placed = true ∧ c.record.tape <+: c'.record.tape
  switching : ∀ isOpening, c'.switching = some (t, isOpening) ↔ c.switching = some (t, isOpening)
  /-- While it opens a stream, no other call opens or closes one. -/
  opening : ∀ isOpening, c.switching = some (t, isOpening) →
    c'.session = c.session ∧ c'.record.placed = c.record.placed ∧
      c'.stream.isOpen = c.stream.isOpen
  delivered : c'.deliveriesTo t = c.deliveriesTo t
  answers : c'.answersOf t = c.answersOf t

/-- What a call may rely on the others to keep. -/
structure Rely (t : CallId) (c c' : Client) : Prop extends Sees t c c' where
  curl : c'.curlOwner = some t ↔ c.curlOwner = some t
  refresh : c'.refreshOwner = some t ↔ c.refreshOwner = some t

theorem Sees.refl (t : CallId) (c : Client) : Sees t c c where
  clock := Int.le_refl _
  session := Nat.le_refl _
  signs _ := List.suffix_rfl
  placed _ h := ⟨h, List.prefix_rfl⟩
  switching _ := Iff.rfl
  opening _ _ := ⟨rfl, rfl, rfl⟩
  delivered := rfl
  answers := rfl

theorem Sees.trans {t : CallId} {c c' c'' : Client} (h : Sees t c c') (h' : Sees t c' c'') :
    Sees t c c'' where
  clock := Int.le_trans h.clock h'.clock
  session := Nat.le_trans h.session h'.session
  signs heq := by
    have := h.session
    have := h'.session
    exact (h.signs (by omega)).trans (h'.signs (by omega))
  placed heq hplaced := by
    have := h.session
    have := h'.session
    obtain ⟨hplaced', htape⟩ := h.placed (by omega) hplaced
    obtain ⟨hplaced'', htape'⟩ := h'.placed (by omega) hplaced'
    exact ⟨hplaced'', htape.trans htape'⟩
  switching isOpening := (h'.switching isOpening).trans (h.switching isOpening)
  opening isOpening hopening := by
    obtain ⟨hsession, hplaced, hopen⟩ := h.opening isOpening hopening
    obtain ⟨hsession', hplaced', hopen'⟩ :=
      h'.opening isOpening ((h.switching isOpening).mpr hopening)
    exact ⟨hsession'.trans hsession, hplaced'.trans hplaced, hopen'.trans hopen⟩
  delivered := h'.delivered.trans h.delivered
  answers := h'.answers.trans h.answers

theorem Rely.refl (t : CallId) (c : Client) : Rely t c c :=
  { Sees.refl t c with curl := Iff.rfl, refresh := Iff.rfl }

theorem Rely.trans {t : CallId} {c c' c'' : Client} (h : Rely t c c') (h' : Rely t c' c'') :
    Rely t c c'' :=
  { h.toSees.trans h'.toSees with
    curl := h'.curl.trans h.curl
    refresh := h'.refresh.trans h.refresh }

/-- What a call promises of a command. -/
def Promise (content : Nat → String → ByteString) (t : CallId) (c : Client) : Cmd → Prop
  | .lockCurl | .lockRefresh => c.curlOwner ≠ some t ∧ c.refreshOwner ≠ some t
  | .tryLockRefresh => c.refreshOwner ≠ some t
  | .enter _ => c.curlOwner ≠ some t ∧ c.refreshOwner ≠ some t ∧ Switching t none c
  | .unlockCurl => c.curlOwner = some t
  | .unlockRefresh => c.refreshOwner = some t
  | .leave => ∃ isOpening, c.switching = some (t, isOpening) ∧
      (isOpening = true → c.stream.isOpen = true → c.record.placed = true)
  | .resetClosed | .reset => ∃ isOpening, c.switching = some (t, isOpening)
  | .setOpen _ => c.switching = some (t, true)
  | .place => c.switching = some (t, true) ∧ c.record.placed = false
  | .endFetch session read answer => Chosen session read c ∧ Answered content session read answer
  | .afterRefresh session _ _ _ _ refreshFatal =>
      refreshFatal = true → c.session = session → .fatalManifest ∈ c.record.signs
  | .polledFatal session => c.session = session → .fatalManifest ∈ c.record.signs
  | .giveUp session => c.session = session → Condemned c.record.signs c.clock
  | .answer result bytes => HandsBack (c.deliveriesTo t) result bytes
  | _ => True

/-- The steps that are supposed to happen: no try of a read, be it the first or one of
its retries, arrives while a stream is being opened, and the answer to a fetch comes
from the file it asks for. -/
def supposed (content : Nat → String → ByteString) (c : Client) : Cmd → Choice → Prop
  | .arrive _, _ => ∀ s ∈ c.switching, s.2 = false
  | .perform session read, choice =>
      choice.transferOk = true →
        (choice.httpCode = 206 → choice.chunks.flatten <+:
          (content session read.segment.filename).drop read.offsetInSegment.toNat) ∧
        (choice.httpCode = 200 → choice.chunks.flatten <+: content session read.segment.filename)
  | _, _ => True

instance decidableSupposed (content : Nat → String → ByteString) (c : Client) (cmd : Cmd)
    (choice : Choice) : Decidable (supposed content c cmd choice) := by
  cases cmd
  case arrive => exact inferInstanceAs (Decidable (∀ s ∈ c.switching, s.2 = false))
  case perform session read =>
    exact inferInstanceAs (Decidable (choice.transferOk = true →
      (choice.httpCode = 206 → choice.chunks.flatten <+:
        (content session read.segment.filename).drop read.offsetInSegment.toNat) ∧
      (choice.httpCode = 200 → choice.chunks.flatten <+: content session read.segment.filename)))
  all_goals exact .isTrue trivial

end LiveClient

end DispatcharrPvr
