import DispatcharrPvr.WebSocket.ServerFrame

/-!
# WebSocket.Reads

The client's reads depend on the bytes alone, not on how they are cut into
chunks, so each frame is read whole and does to the client what it does to the
message being put together.
-/

namespace DispatcharrPvr

/-! ## what is left to read -/

/-- One thing the client is still to read. -/
inductive StreamItem where
  | byte (b : UInt8)
  | timeout
  | failed
deriving DecidableEq, Repr

/-- The bytes of a chunk, one by one. -/
def RecvEvent.items : RecvEvent → List StreamItem
  | .chunk first others => (first :: others).map .byte
  | .timeout => [.timeout]
  | .failed => [.failed]

namespace WebSocketClient

/-- The bytes in the buffer that were not consumed yet. -/
def unread (client : WebSocketClient) : ByteString := client.recvBuffer.drop client.recvPos

/-- Everything the client is still to read, however it is cut. -/
def view (client : WebSocketClient) (events : List RecvEvent) : List StreamItem :=
  client.unread.map .byte ++ events.flatMap RecvEvent.items

/-- The message being put together is that of the frames so far, and their pings are
answered. -/
structure Holds (client : WebSocketClient) (held : Option WebSocketMessage) (pongs : Nat) :
    Prop where
  recvPos_le : client.recvPos ≤ client.recvBuffer.length
  assembledMessage : client.assembledMessage = heldText held
  messageKind : client.messageKind = heldKind held
  pongs : client.pongs = pongs

end WebSocketClient

/-- What a frame may come to: the message held goes on, or the client gives up,
at a frame that breaks a rule or a ping or pong it refuses. -/
inductive Takes (sendOk : Nat → ByteString → Bool) (held : Option WebSocketMessage) (pongs : Nat)
    (frame : ServerFrame) (rest : List StreamItem) : WebSocketClient.FrameResult → Prop
  | taken {held' completed client events} :
      nextMessage held frame = some (held', completed) → ¬Refused sendOk held pongs frame →
      client.view events = rest → client.Holds held' (frame.pongsAfter pongs) →
      Takes sendOk held pongs frame rest (.ok (completedText completed), client, events)
  | givenUp {client events} : nextMessage held frame = none ∨ Refused sendOk held pongs frame →
      Takes sendOk held pongs frame rest (.failed, client, events)

/-! ## reads -/

namespace WebSocketClient

variable {pongs : Nat}

theorem length_unread (client : WebSocketClient) :
    client.unread.length = client.recvBuffer.length - client.recvPos := by
  simp [unread]

theorem unread_consume (client : WebSocketClient) (len : Nat) :
    (client.consume len).2.unread = client.unread.drop len := by
  unfold consume unread
  simp only
  split <;> simp [List.drop_drop]

theorem Holds.consume {client : WebSocketClient} {held : Option WebSocketMessage}
    (h : client.Holds held pongs) {len : Nat} (henough : len ≤ client.unread.length) :
    (client.consume len).2.Holds held pongs := by
  have hfits : len ≤ client.recvBuffer.length - client.recvPos := by
    simpa [length_unread] using henough
  obtain ⟨hpos, hmessage, hkind, hpongs⟩ := h
  unfold WebSocketClient.consume
  simp only
  split
  · exact ⟨Nat.zero_le _, hmessage, hkind, hpongs⟩
  · exact ⟨by simp only; omega, hmessage, hkind, hpongs⟩

theorem Holds.chunk {client : WebSocketClient} {held : Option WebSocketMessage}
    (h : client.Holds held pongs) (bytes : ByteString) :
    ({ client with recvBuffer := client.recvBuffer ++ bytes } : WebSocketClient).Holds held pongs := by
  refine ⟨?_, h.assembledMessage, h.messageKind, h.pongs⟩
  have hpos := h.recvPos_le
  simp only [List.length_append]
  omega

/-- A chunk moved into the buffer is still to be read. -/
theorem view_chunk {client : WebSocketClient} (hpos : client.recvPos ≤ client.recvBuffer.length)
    (first : UInt8) (others : ByteString) (events : List RecvEvent) :
    ({ client with recvBuffer := client.recvBuffer ++ first :: others } : WebSocketClient).view
        events =
      client.view (.chunk first others :: events) := by
  simp [view, unread, List.drop_append_of_le_length hpos, RecvEvent.items]

/-- Where the buffer is too short for the bytes that come first, they go on in
what follows it. -/
theorem head_of_short {unread bytes : ByteString} {items rest : List StreamItem}
    (h : unread.map .byte ++ items = bytes.map .byte ++ rest)
    (hshort : unread.length < bytes.length) : ∃ b, items.head? = some (.byte b) := by
  have hat : (unread.map StreamItem.byte ++ items)[unread.length]? =
      (bytes.map .byte ++ rest)[unread.length]? := by rw [h]
  rw [List.getElem?_append_right (by simp), List.getElem?_append_left (by simpa using hshort)] at hat
  exact ⟨bytes[unread.length], by simpa [List.head?_eq_getElem?, hshort] using hat⟩

/-- Bytes that are all in the buffer are read from there. -/
theorem readExact_buffered {client : WebSocketClient} {held : Option WebSocketMessage}
    (h : client.Holds held pongs) {events : List RecvEvent} {bytes : ByteString}
    {rest : List StreamItem} (hview : client.view events = bytes.map .byte ++ rest)
    (henough : bytes.length ≤ client.unread.length) :
    ∃ after events', client.readExact bytes.length events = (.ok bytes, after, events') ∧
      after.view events' = rest ∧ after.Holds held pongs := by
  have hsplit : client.unread.map StreamItem.byte =
      (client.unread.take bytes.length).map .byte ++ (client.unread.drop bytes.length).map .byte := by
    rw [← List.map_append, List.take_append_drop]
  rw [view, hsplit, List.append_assoc] at hview
  obtain ⟨hbytes, hrest⟩ := List.append_inj hview (by simp [henough])
  have htake : client.unread.take bytes.length = bytes :=
    (List.map_inj_right fun _ _ h => StreamItem.byte.inj h).mp hbytes
  refine ⟨(client.consume bytes.length).2, events, ?_, ?_, h.consume henough⟩
  · rw [length_unread] at henough
    unfold readExact
    rw [if_neg (by omega)]
    simp only [Prod.mk.injEq, Received.ok.injEq, and_true]
    exact htake
  · rw [view, unread_consume, hrest]

/-- Bytes that are there, in the buffer or in chunks to come, are read. -/
theorem readExact_bytes {client : WebSocketClient} {held : Option WebSocketMessage}
    (h : client.Holds held pongs) {events : List RecvEvent} {bytes : ByteString}
    {rest : List StreamItem} (hview : client.view events = bytes.map .byte ++ rest) :
    ∃ after events', client.readExact bytes.length events = (.ok bytes, after, events') ∧
      after.view events' = rest ∧ after.Holds held pongs := by
  induction events generalizing client with
  | nil =>
      rcases Nat.lt_or_ge client.unread.length bytes.length with hshort | henough
      · obtain ⟨b, hb⟩ := head_of_short hview hshort
        simp at hb
      · exact readExact_buffered h hview henough
  | cons event events ih =>
      rcases Nat.lt_or_ge client.unread.length bytes.length with hshort | henough
      · obtain ⟨b, hb⟩ := head_of_short hview hshort
        cases event with
        | timeout => simp [RecvEvent.items] at hb
        | failed => simp [RecvEvent.items] at hb
        | chunk first others =>
            rw [length_unread] at hshort
            unfold readExact
            rw [if_pos hshort]
            exact ih (h.chunk (first :: others)) (by rw [view_chunk h.recvPos_le, hview])
      · exact readExact_buffered h hview henough

theorem short_of_head {client : WebSocketClient} {len : Nat} (hlen : 0 < len)
    {events : List RecvEvent} (hview : ∀ item ∈ (client.view events).head?, item = .timeout) :
    client.unread = [] ∧ client.recvBuffer.length - client.recvPos < len := by
  have hunread : client.unread = [] := by
    cases hcase : client.unread with
    | nil => rfl
    | cons b bytes => simp [view, hcase] at hview
  refine ⟨hunread, ?_⟩
  rw [← length_unread, hunread]
  exact hlen

/-- With nothing left, or a time-out next, a read times out and moves nothing
else. -/
theorem readExact_timeout {client : WebSocketClient} {held : Option WebSocketMessage}
    (h : client.Holds held pongs) {len : Nat} (hlen : 0 < len) {events : List RecvEvent}
    (hview : ∀ item ∈ (client.view events).head?, item = .timeout) :
    ∃ after events', client.readExact len events = (.timedOut, after, events') ∧
      after.view events' = (client.view events).tail ∧ after.Holds held pongs := by
  induction events generalizing client with
  | nil =>
      obtain ⟨hunread, hshort⟩ := short_of_head hlen hview
      unfold readExact
      exact ⟨client, [], by rw [if_pos hshort], by simp [view, hunread], h⟩
  | cons event events ih =>
      obtain ⟨hunread, hshort⟩ := short_of_head hlen hview
      unfold readExact
      rw [if_pos hshort]
      cases event with
      | timeout => exact ⟨client, events, rfl, by simp [view, hunread, RecvEvent.items], h⟩
      | failed => simp [view, hunread, RecvEvent.items] at hview
      | chunk first others =>
          rw [← view_chunk h.recvPos_le] at hview ⊢
          exact ih (h.chunk (first :: others)) hview

end WebSocketClient

/-! ## one frame -/

namespace ServerFrame

/-- What the first two bytes say. -/
def header (frame : ServerFrame) : WebSocketFrameHeader where
  fin := frame.fin
  opcode := frame.opcode.code
  masked := false
  payloadLength7Bit := frame.secondByte.toNat

theorem toUInt8_low : ∀ n : Fin 128,
    (n.val.toUInt8 &&& 0x80 != 0) = false ∧ n.val.toUInt8 &&& 0x7F = n.val.toUInt8 := by
  decide

theorem secondByte_low (frame : ServerFrame) :
    (frame.secondByte &&& 0x80 != 0) = false ∧ frame.secondByte &&& 0x7F = frame.secondByte := by
  obtain ⟨fin, opcode, payload, lengthEncoding, fits⟩ := frame
  cases lengthEncoding with
  | sevenBits => exact toUInt8_low ⟨payload.length, Nat.lt_trans fits (by decide)⟩
  | sixteenBits => exact toUInt8_low 126
  | sixtyFourBits => exact toUInt8_low 127

theorem firstByte_bits (frame : ServerFrame) :
    (frame.firstByte &&& 0x80 != 0) = frame.fin ∧ frame.firstByte &&& 0x0F = frame.opcode.code := by
  unfold firstByte
  cases frame.fin <;> cases frame.opcode <;> decide

theorem parse_header (frame : ServerFrame) :
    parseFrameHeaderBytes [frame.firstByte, frame.secondByte] = frame.header := by
  obtain ⟨hfin, hopcode⟩ := frame.firstByte_bits
  obtain ⟨hmasked, hlength⟩ := frame.secondByte_low
  simp [parseFrameHeaderBytes, header, hfin, hopcode, hmasked, hlength]

theorem control_code (opcode : ServerOpcode) : 8 ≤ opcode.code ↔ opcode.isControl = true := by
  cases opcode <;> decide

theorem data_code {opcode : ServerOpcode} (hdata : opcode.isControl = false) :
    opcode.code ≠ 0x9 ∧ opcode.code ≠ 0xA ∧ opcode.code ≠ 0x8 := by
  cases opcode with
  | continuation => decide
  | text => decide
  | binary => decide
  | ping => exact absurd hdata nofun
  | pong => exact absurd hdata nofun

/-- The check on a frame as such is that on a ping or pong. -/
theorem isValid_header (frame : ServerFrame) :
    isValidServerFrame frame.header.opcode frame.header.fin frame.header.masked
        frame.payload.length = true ↔
      ¬(frame.opcode.isControl = true ∧ (!frame.fin ∨ frame.payload.length > 125)) := by
  simp only [isValidServerFrame, header, control_code]
  cases frame.opcode.isControl <;> simp

end ServerFrame

namespace WebSocketClient

variable {pongs : Nat}

/-- The length of a frame is read in the encoding it is written in. -/
theorem readLength_frame {client : WebSocketClient} {held : Option WebSocketMessage}
    (h : client.Holds held pongs) {events : List RecvEvent} {frame : ServerFrame}
    {rest : List StreamItem} (hview : client.view events = frame.extendedBytes.map .byte ++ rest)
    (next : Nat → WebSocketClient → List RecvEvent → FrameResult) :
    ∃ after events', client.readLength frame.header.payloadLength7Bit events next =
        next frame.payload.length after events' ∧
      after.view events' = rest ∧ after.Holds held pongs := by
  obtain ⟨fin, opcode, payload, lengthEncoding, fits⟩ := frame
  cases lengthEncoding with
  | sevenBits =>
      have hlength : payload.length < 126 := fits
      have hbyte : payload.length.toUInt8.toNat = payload.length := by
        simp [Nat.toUInt8]
        omega
      refine ⟨client, events, ?_, by simpa [ServerFrame.extendedBytes] using hview, h⟩
      simp only [readLength, ServerFrame.header, ServerFrame.secondByte, hbyte]
      rw [if_neg (by omega), if_neg (by omega)]
  | sixteenBits =>
      have hdecode : decodeExtendedPayloadLength (BigEndian.encode 2 payload.length) =
          payload.length :=
        BigEndian.decode_encode (Nat.lt_of_lt_of_eq fits (by decide))
      obtain ⟨after, events', hread, hafter⟩ := readExact_bytes h hview
      simp only [ServerFrame.extendedBytes, BigEndian.length_encode] at hread
      refine ⟨after, events', ?_, hafter⟩
      simp [readLength, ServerFrame.header, ServerFrame.secondByte, hread, midFrame, hdecode]
  | sixtyFourBits =>
      have hdecode : decodeExtendedPayloadLength (BigEndian.encode 8 payload.length) =
          payload.length :=
        BigEndian.decode_encode (Nat.lt_of_lt_of_eq fits (by decide))
      obtain ⟨after, events', hread, hafter⟩ := readExact_bytes h hview
      simp only [ServerFrame.extendedBytes, BigEndian.length_encode] at hread
      refine ⟨after, events', ?_, hafter⟩
      simp [readLength, ServerFrame.header, ServerFrame.secondByte, hread, midFrame, hdecode]

/-- The payload of a frame that is not masked is read as it is. -/
theorem readPayload_frame {client : WebSocketClient} {held : Option WebSocketMessage}
    (h : client.Holds held pongs) {events : List RecvEvent} {payload : ByteString}
    {rest : List StreamItem} (hview : client.view events = payload.map .byte ++ rest)
    (maskKey : ByteString) (next : ByteString → WebSocketClient → List RecvEvent → FrameResult) :
    ∃ after events', client.readPayload payload.length false maskKey events next =
        next payload after events' ∧
      after.view events' = rest ∧ after.Holds held pongs := by
  unfold readPayload
  cases payload with
  | nil => exact ⟨client, events, rfl, by simpa using hview, h⟩
  | cons b payload =>
      obtain ⟨after, events', hread, hafter⟩ := readExact_bytes h hview
      refine ⟨after, events', ?_, hafter⟩
      rw [if_pos (by simp), hread]
      rfl

theorem dispatch_data {frame : ServerFrame} (hdata : frame.opcode.isControl = false)
    {client : WebSocketClient} {held : Option WebSocketMessage} (h : client.Holds held pongs)
    (sendOk : Nat → ByteString → Bool) (events : List RecvEvent) :
    dispatch sendOk frame.header frame.payload client events =
      let decided := decideWebSocketDataFrameAction frame.opcode.code frame.fin (heldKind held)
      actOn frame.payload { client with messageKind := decided.2 } events decided.1 := by
  obtain ⟨hping, hpong, hclose⟩ := ServerFrame.data_code hdata
  unfold dispatch ServerFrame.header
  rw [if_neg hping, if_neg hpong, if_neg hclose, h.messageKind]

/-- A data frame is put to the message it goes on with. -/
theorem dispatch_begun {frame : ServerFrame} (hdata : frame.opcode.isControl = false)
    {client : WebSocketClient} {held : Option WebSocketMessage} (h : client.Holds held pongs)
    {message : WebSocketMessage} (hbegin : beginMessage held frame.opcode = some message)
    (sendOk : Nat → ByteString → Bool) (events : List RecvEvent) :
    let completed := if frame.fin then some (message.append frame.payload) else none
    ∃ after, dispatch sendOk frame.header frame.payload client events =
        (.ok (completedText completed), after, events) ∧
      after.view events = client.view events ∧
      after.Holds (if frame.fin then none else some (message.append frame.payload)) pongs := by
  have htext := heldText_begun hbegin
  rw [← h.assembledMessage] at htext
  rw [dispatch_data hdata h, decide_begun hbegin]
  obtain ⟨isText, payload⟩ := message
  cases isText with
  | false =>
      cases frame.fin
      · exact ⟨_, rfl, rfl, h.recvPos_le, htext, rfl, h.pongs⟩
      · exact ⟨_, rfl, rfl, h.recvPos_le, htext, rfl, h.pongs⟩
  | true =>
      have htext : client.assembledMessage = payload := htext
      rw [← htext]
      cases frame.fin
      · exact ⟨_, rfl, rfl, h.recvPos_le, rfl, rfl, h.pongs⟩
      · exact ⟨_, rfl, rfl, h.recvPos_le, rfl, rfl, h.pongs⟩

/-- Of a frame, the header and the length are read before anything is checked,
and the payload after that. -/
theorem receiveFrame_header {client : WebSocketClient} {held : Option WebSocketMessage}
    (h : client.Holds held pongs) (sendOk : Nat → ByteString → Bool) {events : List RecvEvent}
    {frame : ServerFrame} {rest : List StreamItem}
    (hview : client.view events = frame.bytes.map .byte ++ rest) :
    ∃ after events', client.receiveFrame sendOk events =
        (if !isValidServerFrame frame.header.opcode frame.header.fin frame.header.masked
            frame.payload.length then (.failed, after, events')
        else if frame.payload.length > maxFramePayload ∨
            after.assembledMessage.length + frame.payload.length > maxFramePayload then
          (.failed, after, events')
        else readPayload after frame.payload.length false [0, 0, 0, 0] events'
          (dispatch sendOk frame.header)) ∧
      after.view events' = frame.payload.map .byte ++ rest ∧ after.Holds held pongs := by
  rw [ServerFrame.bytes, List.map_append, List.append_assoc] at hview
  obtain ⟨afterHeader, events₁, hread, hview₁, h₁⟩ := readExact_bytes h hview
  rw [List.map_append, List.append_assoc] at hview₁
  obtain ⟨after, events₂, hlength, hview₂, h₂⟩ := readLength_frame h₁ hview₁
    (fun len client events =>
        if !isValidServerFrame frame.header.opcode frame.header.fin frame.header.masked len then
          (.failed, client, events)
        else if len > maxFramePayload ∨ client.assembledMessage.length + len > maxFramePayload then
          (.failed, client, events)
        else readMaskKey client frame.header.masked events fun maskKey client events =>
          readPayload client len frame.header.masked maskKey events fun payload client events =>
            dispatch sendOk frame.header payload client events)
  refine ⟨after, events₂, ?_, hview₂, h₂⟩
  simp only [List.length_cons, List.length_nil, Nat.zero_add, Nat.reduceAdd] at hread
  simp only [receiveFrame, hread, ServerFrame.parse_header, hlength]
  rfl

/-- A frame that passes the checks is read to its end. -/
theorem receiveFrame_checked {client : WebSocketClient} {held : Option WebSocketMessage}
    (h : client.Holds held pongs) (sendOk : Nat → ByteString → Bool) {events : List RecvEvent}
    {frame : ServerFrame} {rest : List StreamItem}
    (hview : client.view events = frame.bytes.map .byte ++ rest)
    (hvalid : ¬(frame.opcode.isControl = true ∧ (!frame.fin ∨ frame.payload.length > 125)))
    (hlength : overCap frame.payload.length = false)
    (htotal : overCap ((heldText held).length + frame.payload.length) = false) :
    ∃ after events', client.receiveFrame sendOk events =
        dispatch sendOk frame.header frame.payload after events' ∧
      after.view events' = rest ∧ after.Holds held pongs := by
  obtain ⟨afterLength, events₁, hreceive, hview₁, h₁⟩ := receiveFrame_header h sendOk hview
  obtain ⟨after, events₂, hpayload, hafter⟩ :=
    readPayload_frame h₁ hview₁ [0, 0, 0, 0] (dispatch sendOk frame.header)
  refine ⟨after, events₂, ?_, hafter⟩
  simp only [overCap, decide_eq_false_iff_not] at hlength htotal
  rw [hreceive, frame.isValid_header.mpr hvalid, h₁.assembledMessage, Bool.not_true,
    if_neg Bool.false_ne_true, if_neg (not_or.mpr ⟨hlength, htotal⟩), hpayload]

/-- A frame that does not pass them ends in an error. -/
theorem receiveFrame_unchecked {client : WebSocketClient} {held : Option WebSocketMessage}
    (h : client.Holds held pongs) (sendOk : Nat → ByteString → Bool) {events : List RecvEvent}
    {frame : ServerFrame} {rest : List StreamItem}
    (hview : client.view events = frame.bytes.map .byte ++ rest)
    (hbad : (frame.opcode.isControl = true ∧ (!frame.fin ∨ frame.payload.length > 125)) ∨
      overCap frame.payload.length = true ∨
      overCap ((heldText held).length + frame.payload.length) = true) :
    ∃ after events', client.receiveFrame sendOk events = (.failed, after, events') := by
  obtain ⟨after, events', hreceive, -, hholds⟩ := receiveFrame_header h sendOk hview
  refine ⟨after, events', ?_⟩
  rw [hreceive]
  split
  · rfl
  · rename_i hvalid
    rw [Bool.not_eq_true, Bool.not_eq_false', frame.isValid_header] at hvalid
    have hlong := hbad.resolve_left hvalid
    simp only [overCap, decide_eq_true_eq] at hlong
    rw [if_pos (by rwa [hholds.assembledMessage])]

/-- A data frame writes no pong. -/
theorem pongsAfter_data {frame : ServerFrame} (hdata : frame.opcode.isControl = false)
    (pongs : Nat) : frame.pongsAfter pongs = pongs :=
  if_neg fun hping => by simp [hping, ServerOpcode.isControl] at hdata

/-- What a ping or pong that breaks no rule is put to. -/
theorem dispatch_control {frame : ServerFrame} (hcontrol : frame.opcode.isControl = true)
    (sendOk : Nat → ByteString → Bool) (client : WebSocketClient) (events : List RecvEvent) :
    dispatch sendOk frame.header frame.payload client events =
      let answered := { client with pongs := frame.pongsAfter client.pongs }
      if frame.opcode = .ping ∧ sendOk client.pongs frame.payload = false then
        (.failed, answered, events)
      else (.ok none, answered, events) := by
  unfold dispatch ServerFrame.header ServerFrame.pongsAfter
  cases hopcode : frame.opcode with
  | ping => cases sendOk client.pongs frame.payload <;> rfl
  | pong => rfl
  | continuation => simp [hopcode, ServerOpcode.isControl] at hcontrol
  | text => simp [hopcode, ServerOpcode.isControl] at hcontrol
  | binary => simp [hopcode, ServerOpcode.isControl] at hcontrol

/-- A ping or pong leaves the message held as it is. -/
theorem takes_control {client : WebSocketClient} {held : Option WebSocketMessage}
    (h : client.Holds held pongs) (sendOk : Nat → ByteString → Bool) {events : List RecvEvent}
    {frame : ServerFrame} {rest : List StreamItem}
    (hview : client.view events = frame.bytes.map .byte ++ rest)
    (hcontrol : frame.opcode.isControl = true) :
    Takes sendOk held pongs frame rest (client.receiveFrame sendOk events) := by
  have hnext : nextMessage held frame =
      if !frame.fin ∨ frame.payload.length > 125 then none else some (held, none) := by
    unfold nextMessage
    rw [if_pos hcontrol]
  by_cases hrule : !frame.fin ∨ frame.payload.length > 125
  · obtain ⟨after, events', hfailed⟩ :=
      receiveFrame_unchecked h sendOk hview (.inl ⟨hcontrol, hrule⟩)
    rw [hfailed]
    exact .givenUp (.inl (by rw [hnext, if_pos hrule]))
  rw [if_neg hrule] at hnext
  cases htotal : overCap ((heldText held).length + frame.payload.length) with
  | true =>
      obtain ⟨after, events', hfailed⟩ :=
        receiveFrame_unchecked h sendOk hview (.inr (.inr htotal))
      rw [hfailed]
      exact .givenUp (.inr ⟨hcontrol, .inl htotal⟩)
  | false =>
      obtain ⟨after, events', hchecked, hrest, hholds⟩ :=
        receiveFrame_checked h sendOk hview (fun hbad => hrule hbad.2)
          (overCap_mono (Nat.le_add_left ..) htotal) htotal
      rw [hchecked, dispatch_control hcontrol, hholds.pongs]
      dsimp only
      split
      · rename_i hunsent
        exact .givenUp (.inr ⟨hcontrol, .inr hunsent⟩)
      · rename_i hsent
        exact .taken hnext (fun hrefused => hrefused.2.elim (by simp [htotal]) hsent) hrest
          { hholds with pongs := rfl }

/-- A data frame is added to the message it goes on with. -/
theorem takes_data {client : WebSocketClient} {held : Option WebSocketMessage}
    (h : client.Holds held pongs) (sendOk : Nat → ByteString → Bool) {events : List RecvEvent}
    {frame : ServerFrame} {rest : List StreamItem}
    (hview : client.view events = frame.bytes.map .byte ++ rest)
    (hdata : frame.opcode.isControl = false) :
    Takes sendOk held pongs frame rest (client.receiveFrame sendOk events) := by
  by_cases hlong : overCap frame.payload.length = true ∨
      overCap ((heldText held).length + frame.payload.length) = true
  · obtain ⟨after, events', hfailed⟩ := receiveFrame_unchecked h sendOk hview (.inr hlong)
    rw [hfailed]
    exact .givenUp (.inl (nextMessage_long hdata hlong))
  · obtain ⟨hlength, htotal⟩ := not_or.mp hlong
    obtain ⟨after, events', hchecked, hrest, hholds⟩ :=
      receiveFrame_checked h sendOk hview (fun hbad => by simp [hdata] at hbad)
        (Bool.not_eq_true _ ▸ hlength) (Bool.not_eq_true _ ▸ htotal)
    rw [hchecked]
    cases hbegin : beginMessage held frame.opcode with
    | none =>
        rw [dispatch_data hdata hholds, decide_unbegun hdata hbegin]
        exact .givenUp (.inl (by simp [nextMessage, hdata, hbegin]))
    | some message =>
        obtain ⟨added, hdispatch, hview', hholds'⟩ :=
          dispatch_begun hdata hholds hbegin sendOk events'
        rw [hdispatch]
        have htext := heldText_begun hbegin
        have hnext := nextMessage_begun hbegin (Bool.eq_false_iff.mpr hlength) fun hisText => by
          rw [htext, if_pos hisText, Bool.not_eq_true] at htotal
          rwa [List.length_append]
        exact .taken hnext (not_refused hdata) (hview'.trans hrest)
          ((pongsAfter_data hdata pongs).symm ▸ hholds')

/-- One pass of the loop, on a frame. -/
theorem takes_frame {client : WebSocketClient} {held : Option WebSocketMessage}
    (h : client.Holds held pongs) (sendOk : Nat → ByteString → Bool) {events : List RecvEvent}
    {frame : ServerFrame} {rest : List StreamItem}
    (hview : client.view events = frame.bytes.map .byte ++ rest) :
    Takes sendOk held pongs frame rest (client.receiveFrame sendOk events) := by
  cases hcontrol : frame.opcode.isControl with
  | true => exact takes_control h sendOk hview hcontrol
  | false => exact takes_data h sendOk hview hcontrol

/-- On a frame that breaks no rule and is not refused. -/
theorem receiveFrame_next {client : WebSocketClient} {held held' completed : Option WebSocketMessage}
    (h : client.Holds held pongs) (sendOk : Nat → ByteString → Bool) {events : List RecvEvent}
    {frame : ServerFrame} {rest : List StreamItem}
    (hview : client.view events = frame.bytes.map .byte ++ rest)
    (hnext : nextMessage held frame = some (held', completed))
    (hpasses : ¬Refused sendOk held pongs frame) :
    ∃ after events', client.receiveFrame sendOk events =
        (.ok (completedText completed), after, events') ∧
      after.view events' = rest ∧ after.Holds held' (frame.pongsAfter pongs) := by
  have htakes := takes_frame h sendOk hview
  generalize client.receiveFrame sendOk events = result at htakes
  cases htakes with
  | taken htaken _ hrest hholds =>
      rw [hnext, Option.some.injEq, Prod.mk.injEq] at htaken
      obtain ⟨rfl, rfl⟩ := htaken
      exact ⟨_, _, rfl, hrest, hholds⟩
  | givenUp hgivenUp =>
      exact absurd hgivenUp (not_or.mpr ⟨by simp [hnext], hpasses⟩)

/-- One pass of the loop between frames: a time-out that moves nothing else. -/
theorem receiveFrame_timeout {client : WebSocketClient} {held : Option WebSocketMessage}
    (h : client.Holds held pongs) (sendOk : Nat → ByteString → Bool) {events : List RecvEvent}
    (hview : ∀ item ∈ (client.view events).head?, item = .timeout) :
    ∃ after events', client.receiveFrame sendOk events = (.timedOut, after, events') ∧
      after.view events' = (client.view events).tail ∧ after.Holds held pongs := by
  obtain ⟨after, events', hread, hafter⟩ := readExact_timeout h (Nat.zero_lt_two) hview
  exact ⟨after, events', by simp only [receiveFrame, hread], hafter⟩

end WebSocketClient

end DispatcharrPvr
