import Mathlib.Data.List.Forall2
import DispatcharrPvr.Lib.BigEndian
import DispatcharrPvr.WebSocket

/-!
# WebSocket.ServerFrame

What the frames of a server say, apart from how the client reads them: their
bytes, and the messages they are fragments of.
-/

namespace DispatcharrPvr

/-! ## the frames of a server -/

/-- What a server sends: a fragment of a message, a ping or a pong. -/
inductive ServerOpcode where
  | continuation
  | text
  | binary
  | ping
  | pong
deriving DecidableEq, Repr

namespace ServerOpcode

/-- Its bits. -/
def code : ServerOpcode → UInt8
  | continuation => 0
  | text => 1
  | binary => 2
  | ping => 9
  | pong => 10

/-- A ping or a pong. -/
def isControl : ServerOpcode → Bool
  | ping => true
  | pong => true
  | _ => false

end ServerOpcode

/-- The ways to write a length. -/
inductive LengthEncoding where
  | sevenBits
  | sixteenBits
  | sixtyFourBits
deriving DecidableEq, Repr

namespace LengthEncoding

/-- The lengths that can be written so. -/
def limit : LengthEncoding → Nat
  | sevenBits => 126
  | sixteenBits => 65536
  | sixtyFourBits => 18446744073709551616

end LengthEncoding

/-- A frame, its length written in one of the encodings it fits in. -/
structure ServerFrame where
  fin : Bool
  opcode : ServerOpcode
  payload : ByteString
  lengthEncoding : LengthEncoding
  fits : payload.length < lengthEncoding.limit

namespace ServerFrame

/-- The first byte. -/
def firstByte (frame : ServerFrame) : UInt8 :=
  if frame.fin then 0x80 ||| frame.opcode.code else frame.opcode.code

/-- The second byte, the mask bit not set. -/
def secondByte (frame : ServerFrame) : UInt8 :=
  match frame.lengthEncoding with
  | .sevenBits => frame.payload.length.toUInt8
  | .sixteenBits => 126
  | .sixtyFourBits => 127

/-- The bytes of the length that follow the first two. -/
def extendedBytes (frame : ServerFrame) : ByteString :=
  match frame.lengthEncoding with
  | .sevenBits => []
  | .sixteenBits => BigEndian.encode 2 frame.payload.length
  | .sixtyFourBits => BigEndian.encode 8 frame.payload.length

/-- The frame on the wire. -/
def bytes (frame : ServerFrame) : ByteString :=
  [frame.firstByte, frame.secondByte] ++ (frame.extendedBytes ++ frame.payload)

end ServerFrame

/-! ## the messages they make up -/

/-- A message, or the part of one that has arrived. -/
structure WebSocketMessage where
  isText : Bool
  payload : ByteString
deriving DecidableEq, Repr

/-- The message with one more fragment. -/
def WebSocketMessage.append (message : WebSocketMessage) (fragment : ByteString) :
    WebSocketMessage :=
  { message with payload := message.payload ++ fragment }

theorem WebSocketMessage.append_append (message : WebSocketMessage) (first second : ByteString) :
    (message.append first).append second = message.append (first ++ second) := by
  simp [append]

/-- Whether a payload of this many bytes, of this frame or this text message so
far, is too long. -/
def overCap (len : Nat) : Bool := decide (len > WebSocketClient.maxFramePayload)

/-- The message a data frame goes on with: the one held, or one it begins. -/
def beginMessage : Option WebSocketMessage → ServerOpcode → Option WebSocketMessage
  | none, .text => some ⟨true, []⟩
  | none, .binary => some ⟨false, []⟩
  | some message, .continuation => some message
  | _, _ => none

/-- What a frame does to the message held: the one held after it and the one it
completes.  `none` when it breaks a rule: a ping or pong that is fragmented or
longer than 125 bytes, a continuation of nothing, a message begun inside
another, a frame or a text message over the cap. -/
def nextMessage (held : Option WebSocketMessage) (frame : ServerFrame) :
    Option (Option WebSocketMessage × Option WebSocketMessage) :=
  if frame.opcode.isControl then
    if !frame.fin ∨ frame.payload.length > 125 then none else some (held, none)
  else
    match beginMessage held frame.opcode with
    | none => none
    | some message =>
        let message := message.append frame.payload
        if overCap frame.payload.length ∨ (message.isText ∧ overCap message.payload.length) then none
        else if frame.fin then some (none, some message)
        else some (some message, none)

/-- The messages of a stream of frames, and whether it comes to one that breaks
a rule. -/
structure Assembled where
  messages : List WebSocketMessage
  broken : Bool
deriving DecidableEq, Repr

/-- The frames put together, from the message held on. -/
def assemble (held : Option WebSocketMessage) : List ServerFrame → Assembled
  | [] => ⟨[], false⟩
  | frame :: frames =>
      match nextMessage held frame with
      | none => ⟨[], true⟩
      | some (held, completed) =>
          let rest := assemble held frames
          { rest with messages := completed.toList ++ rest.messages }

/-- The data frames of a message: the kind on the first, the end on the last. -/
structure IsFragmented (message : WebSocketMessage) (data : List ServerFrame) : Prop where
  opcodes : data.map (·.opcode) =
    (if message.isText then .text else .binary) :: List.replicate (data.length - 1) .continuation
  fins : data.map (·.fin) = List.replicate (data.length - 1) false ++ [true]
  payload : message.payload = data.flatMap (·.payload)

/-- A valid stream: messages one after the other, in frames, with pings and
pongs anywhere between these, and none too long. -/
structure Carries (frames : List ServerFrame) (messages : List WebSocketMessage) : Prop where
  fragmented : ∃ groups, List.Forall₂ IsFragmented messages groups ∧
    frames.filter (!·.opcode.isControl) = groups.flatten
  controls : ∀ frame ∈ frames, frame.opcode.isControl = true →
    frame.fin = true ∧ frame.payload.length ≤ 125
  frames_fit : ∀ frame ∈ frames, overCap frame.payload.length = false
  texts_fit : ∀ message ∈ messages, message.isText = true →
    overCap message.payload.length = false

/-- The payloads of the text messages. -/
def Assembled.texts (assembled : Assembled) : List ByteString :=
  (assembled.messages.filter (·.isText)).map (·.payload)

/-- The text held. -/
def heldText : Option WebSocketMessage → ByteString
  | none => []
  | some message => if message.isText then message.payload else []

/-- The kind of the message held. -/
def heldKind : Option WebSocketMessage → WebSocketMessageKind
  | none => .none
  | some message => if message.isText then .text else .binary

/-- The text of a completed message. -/
def completedText : Option WebSocketMessage → Option ByteString
  | none => none
  | some message => if message.isText then some message.payload else none

/-- How many pongs have been written after a frame. -/
def ServerFrame.pongsAfter (frame : ServerFrame) (pongs : Nat) : Nat :=
  if frame.opcode = .ping then pongs + 1 else pongs

/-- A ping or pong the client gives up at: too long together with the text that
is held when it arrives, or a ping that cannot be answered. -/
def Refused (sendOk : Nat → ByteString → Bool) (held : Option WebSocketMessage) (pongs : Nat)
    (frame : ServerFrame) : Prop :=
  frame.opcode.isControl = true ∧
    (overCap ((heldText held).length + frame.payload.length) = true ∨
      frame.opcode = .ping ∧ sendOk pongs frame.payload = false)

theorem not_refused {sendOk : Nat → ByteString → Bool} {held : Option WebSocketMessage}
    {pongs : Nat} {frame : ServerFrame} (hdata : frame.opcode.isControl = false) :
    ¬Refused sendOk held pongs frame :=
  fun hrefused => Bool.false_ne_true (hdata ▸ hrefused.1)

instance (sendOk : Nat → ByteString → Bool) (held : Option WebSocketMessage) (pongs : Nat)
    (frame : ServerFrame) : Decidable (Refused sendOk held pongs frame) :=
  inferInstanceAs (Decidable (_ ∧ _))

/-- No ping or pong is refused up to the first frame that breaks a rule. -/
def ControlsPass (sendOk : Nat → ByteString → Bool) (held : Option WebSocketMessage) (pongs : Nat) :
    List ServerFrame → Prop
  | [] => True
  | frame :: frames =>
      ¬Refused sendOk held pongs frame ∧
        ∀ after, nextMessage held frame = some after →
          ControlsPass sendOk after.1 (frame.pongsAfter pongs) frames

theorem controlsPass_next {sendOk : Nat → ByteString → Bool}
    {held held' completed : Option WebSocketMessage} {pongs : Nat} {frame : ServerFrame}
    (hnext : nextMessage held frame = some (held', completed)) (frames : List ServerFrame) :
    ControlsPass sendOk held pongs (frame :: frames) ↔
      ¬Refused sendOk held pongs frame ∧
        ControlsPass sendOk held' (frame.pongsAfter pongs) frames := by
  simp only [ControlsPass, hnext, Option.some.injEq, forall_eq']

instance decidableControlsPass (sendOk : Nat → ByteString → Bool) :
    (held : Option WebSocketMessage) → (pongs : Nat) → (frames : List ServerFrame) →
      Decidable (ControlsPass sendOk held pongs frames)
  | _, _, [] => .isTrue trivial
  | held, pongs, frame :: frames =>
      match hnext : nextMessage held frame with
      | none => decidable_of_iff (¬Refused sendOk held pongs frame) (by simp [ControlsPass, hnext])
      | some (held', _) =>
          let _ := decidableControlsPass sendOk held' (frame.pongsAfter pongs) frames
          decidable_of_iff (¬Refused sendOk held pongs frame ∧
              ControlsPass sendOk held' (frame.pongsAfter pongs) frames)
            (controlsPass_next hnext frames).symm

/-! ## what a frame does to the message held -/

/-- A data frame adds to the text held. -/
theorem heldText_begun {held : Option WebSocketMessage} {opcode : ServerOpcode}
    {message : WebSocketMessage} (hbegin : beginMessage held opcode = some message) :
    heldText held = if message.isText then message.payload else [] := by
  unfold beginMessage at hbegin
  split at hbegin
  · obtain rfl := Option.some.inj hbegin
    rfl
  · obtain rfl := Option.some.inj hbegin
    rfl
  · obtain rfl := Option.some.inj hbegin
    rfl
  · exact absurd hbegin nofun

theorem overCap_mono {len total : Nat} (hle : len ≤ total) (h : overCap total = false) :
    overCap len = false := by
  simp only [overCap, decide_eq_false_iff_not] at h ⊢
  omega

/-- A data frame that is over the cap, alone or with the text held, breaks a
rule. -/
theorem nextMessage_long {held : Option WebSocketMessage} {frame : ServerFrame}
    (hdata : frame.opcode.isControl = false)
    (hlong : overCap frame.payload.length = true ∨
      overCap ((heldText held).length + frame.payload.length) = true) :
    nextMessage held frame = none := by
  unfold nextMessage
  rw [if_neg (by simp [hdata])]
  cases hbegin : beginMessage held frame.opcode with
  | none => rfl
  | some message =>
      have htext := heldText_begun hbegin
      have hover : overCap frame.payload.length = true ∨ (message.append frame.payload).isText = true ∧
          overCap (message.append frame.payload).payload.length = true := by
        unfold WebSocketMessage.append
        cases hisText : message.isText <;> simp_all
      simp only [if_pos hover]

theorem isControl_begun {held : Option WebSocketMessage} {opcode : ServerOpcode}
    {message : WebSocketMessage} (hbegin : beginMessage held opcode = some message) :
    opcode.isControl = false := by
  cases opcode with
  | continuation => rfl
  | text => rfl
  | binary => rfl
  | ping => cases held <;> exact absurd hbegin nofun
  | pong => cases held <;> exact absurd hbegin nofun

/-- A data frame that is under the cap is added to the message it goes on
with. -/
theorem nextMessage_begun {held : Option WebSocketMessage} {frame : ServerFrame}
    {message : WebSocketMessage} (hbegin : beginMessage held frame.opcode = some message)
    (hframe : overCap frame.payload.length = false)
    (htext : message.isText = true → overCap (message.payload ++ frame.payload).length = false) :
    nextMessage held frame =
      some (if frame.fin then none else some (message.append frame.payload),
        if frame.fin then some (message.append frame.payload) else none) := by
  have hunder : ¬(overCap frame.payload.length = true ∨
      (message.append frame.payload).isText = true ∧
        overCap (message.append frame.payload).payload.length = true) := by
    rintro (hover | ⟨hisText, hover⟩)
    · exact Bool.false_ne_true (hframe ▸ hover)
    · exact Bool.false_ne_true (htext hisText ▸ hover)
  unfold nextMessage
  rw [if_neg (by simp [isControl_begun hbegin])]
  simp only [hbegin, if_neg hunder]
  cases frame.fin <;> rfl

theorem decide_begun {held : Option WebSocketMessage} {opcode : ServerOpcode}
    {message : WebSocketMessage} (hbegin : beginMessage held opcode = some message) (fin : Bool) :
    decideWebSocketDataFrameAction opcode.code fin (heldKind held) =
      (if message.isText then if fin then .accumulateAndComplete else .accumulate else .drop,
        if fin then .none else heldKind (some message)) := by
  unfold beginMessage at hbegin
  split at hbegin
  · obtain rfl := Option.some.inj hbegin
    cases fin <;> rfl
  · obtain rfl := Option.some.inj hbegin
    cases fin <;> rfl
  · rename_i held
    obtain rfl := Option.some.inj hbegin
    obtain ⟨isText, payload⟩ := held
    cases isText <;> cases fin <;> rfl
  · exact absurd hbegin nofun

theorem decide_unbegun {held : Option WebSocketMessage} {opcode : ServerOpcode}
    (hdata : opcode.isControl = false) (hbegin : beginMessage held opcode = none) (fin : Bool) :
    decideWebSocketDataFrameAction opcode.code fin (heldKind held) =
      (.protocolError, heldKind held) := by
  cases held with
  | none =>
      cases opcode with
      | continuation => rfl
      | text => exact absurd hbegin nofun
      | binary => exact absurd hbegin nofun
      | ping => exact absurd hdata nofun
      | pong => exact absurd hdata nofun
  | some message =>
      obtain ⟨isText, payload⟩ := message
      cases opcode with
      | continuation => exact absurd hbegin nofun
      | text => cases isText <;> rfl
      | binary => cases isText <;> rfl
      | ping => exact absurd hdata nofun
      | pong => exact absurd hdata nofun

/-! ## valid streams -/

theorem assemble_next {held held' completed : Option WebSocketMessage} {frame : ServerFrame}
    (hnext : nextMessage held frame = some (held', completed)) (frames : List ServerFrame) :
    assemble held (frame :: frames) =
      ⟨completed.toList ++ (assemble held' frames).messages, (assemble held' frames).broken⟩ := by
  simp [assemble, hnext]

/-- Pings and pongs that break no rule change nothing. -/
theorem assemble_data (held : Option WebSocketMessage) {frames : List ServerFrame}
    (hcontrols : ∀ frame ∈ frames, frame.opcode.isControl = true →
      frame.fin = true ∧ frame.payload.length ≤ 125) :
    assemble held (frames.filter (!·.opcode.isControl)) = assemble held frames := by
  induction frames generalizing held with
  | nil => rfl
  | cons frame frames ih =>
      rw [List.forall_mem_cons] at hcontrols
      cases hcontrol : frame.opcode.isControl with
      | false =>
          rw [List.filter_cons_of_pos (by simp [hcontrol])]
          unfold assemble
          cases nextMessage held frame with
          | none => rfl
          | some after => simp only [ih after.1 hcontrols.2]
      | true =>
          obtain ⟨hfin, hshort⟩ := hcontrols.1 hcontrol
          have hnext : nextMessage held frame = some (held, none) := by
            unfold nextMessage
            rw [if_pos hcontrol, if_neg (by simp [hfin, hshort])]
          rw [List.filter_cons_of_neg (by simp [hcontrol]), assemble_next hnext, ih held hcontrols.2]
          rfl

/-- The frames after the first complete the message. -/
theorem assemble_continuations {message : WebSocketMessage} {data : List ServerFrame}
    (hopcodes : data.map (·.opcode) = List.replicate data.length .continuation)
    (hfins : data.map (·.fin) = List.replicate (data.length - 1) false ++ [true])
    (hframes : ∀ frame ∈ data, overCap frame.payload.length = false)
    (htext : message.isText = true →
      overCap (message.payload ++ data.flatMap (·.payload)).length = false)
    (rest : List ServerFrame) :
    assemble (some message) (data ++ rest) =
      ⟨message.append (data.flatMap (·.payload)) :: (assemble none rest).messages,
        (assemble none rest).broken⟩ := by
  induction data generalizing message with
  | nil => exact absurd hfins nofun
  | cons frame data ih =>
      obtain ⟨hopcode : frame.opcode = .continuation, hopcodes⟩ := List.cons_eq_cons.mp hopcodes
      rw [List.forall_mem_cons] at hframes
      rw [List.flatMap_cons, ← List.append_assoc] at htext
      have hbegin : beginMessage (some message) frame.opcode = some message := by rw [hopcode]; rfl
      have hnext := nextMessage_begun hbegin hframes.1 fun hisText =>
        overCap_mono (by simp) (htext hisText)
      cases data with
      | nil =>
          have hfin : frame.fin = true := by simpa using hfins
          rw [hfin] at hnext
          rw [List.singleton_append, assemble_next hnext]
          simp
      | cons frame' data =>
          obtain ⟨hfin : frame.fin = false, hfins⟩ := List.cons_eq_cons.mp hfins
          rw [hfin] at hnext
          rw [List.cons_append, assemble_next hnext]
          simp only [Bool.false_eq_true, if_false]
          rw [ih hopcodes hfins hframes.2 htext, WebSocketMessage.append_append]
          rfl

/-- The frames of a message complete it. -/
theorem assemble_message {message : WebSocketMessage} {data : List ServerFrame}
    (h : IsFragmented message data)
    (hframes : ∀ frame ∈ data, overCap frame.payload.length = false)
    (htext : message.isText = true → overCap message.payload.length = false)
    (rest : List ServerFrame) :
    assemble none (data ++ rest) =
      ⟨message :: (assemble none rest).messages, (assemble none rest).broken⟩ := by
  obtain ⟨isText, payload⟩ := message
  obtain ⟨hopcodes, hfins, rfl⟩ := h
  cases data with
  | nil => exact absurd hfins nofun
  | cons frame data =>
      obtain ⟨hopcode, hopcodes⟩ := List.cons_eq_cons.mp hopcodes
      rw [List.forall_mem_cons] at hframes
      simp only [List.flatMap_cons] at htext
      have hbegin : beginMessage none frame.opcode = some ⟨isText, []⟩ := by
        rw [show frame.opcode = _ from hopcode]
        cases isText <;> rfl
      have hnext := nextMessage_begun hbegin hframes.1 fun hisText =>
        overCap_mono (by simp) (htext hisText)
      cases data with
      | nil =>
          have hfin : frame.fin = true := by simpa using hfins
          rw [hfin] at hnext
          rw [List.singleton_append, assemble_next hnext]
          simp [WebSocketMessage.append]
      | cons frame' data =>
          obtain ⟨hfin : frame.fin = false, hfins⟩ := List.cons_eq_cons.mp hfins
          rw [hfin] at hnext
          rw [List.cons_append, assemble_next hnext]
          simp only [Bool.false_eq_true, if_false]
          rw [assemble_continuations hopcodes hfins hframes.2 htext]
          rfl

/-- A valid stream has the messages it carries. -/
theorem assemble_carries {frames : List ServerFrame} {messages : List WebSocketMessage}
    (h : Carries frames messages) : assemble none frames = ⟨messages, false⟩ := by
  obtain ⟨⟨groups, hgroups, hdata⟩, hcontrols, hframes, htexts⟩ := h
  rw [← assemble_data none hcontrols, hdata]
  replace hframes : ∀ frame ∈ groups.flatten, overCap frame.payload.length = false := by
    intro frame hmem
    rw [← hdata] at hmem
    exact hframes frame (List.mem_filter.mp hmem).1
  clear hdata hcontrols
  induction hgroups with
  | nil => rfl
  | @cons message data messages groups hmessage hgroups ih =>
      rw [List.forall_mem_cons] at htexts
      rw [List.flatten_cons, List.forall_mem_append] at hframes
      rw [List.flatten_cons, assemble_message hmessage hframes.1 htexts.1, ih htexts.2 hframes.2]

end DispatcharrPvr
