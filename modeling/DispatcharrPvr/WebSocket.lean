import DispatcharrPvr.RecurringRule

/-!
# WebSocket

The receiving side of the WebSocket client: the frame functions
(`WebSocketFrame.cpp`), the buffered reads and the frame loop
(`WebSocketClient.cpp`).

What `curl_easy_recv` does is a list of events.  A write to the peer succeeds
or not by `sendOk`, which may differ from write to write.  The clock enters
where the code looks at it: as a time-out event of a read, and as the number of
frames a call still handles before its deadline.
-/

namespace DispatcharrPvr

/-! ## WebSocketFrame -/

/-- `WebSocketFrameHeader`. -/
structure WebSocketFrameHeader where
  fin : Bool
  opcode : UInt8
  masked : Bool
  payloadLength7Bit : Nat
deriving DecidableEq, Repr

/-- `ParseFrameHeaderBytes`. -/
def parseFrameHeaderBytes (header : ByteString) : WebSocketFrameHeader where
  fin := header.getD 0 0 &&& 0x80 != 0
  opcode := header.getD 0 0 &&& 0x0F
  masked := header.getD 1 0 &&& 0x80 != 0
  payloadLength7Bit := (header.getD 1 0 &&& 0x7F).toNat

/-- `DecodeExtendedPayloadLength16` and `DecodeExtendedPayloadLength64`, by how
many bytes there are. -/
def decodeExtendedPayloadLength (ext : ByteString) : Nat :=
  ext.foldl (fun len b => len * 256 + b.toNat) 0

/-- `UnmaskPayload`. -/
def unmaskPayload (payload maskKey : ByteString) : ByteString :=
  payload.mapIdx fun i b => b ^^^ maskKey.getD (i % 4) 0

/-- `IsValidServerFrame`. -/
def isValidServerFrame (opcode : UInt8) (fin masked : Bool) (payloadLength : Nat) : Bool :=
  if masked then false
  else if 8 ≤ opcode ∧ (!fin ∨ payloadLength > 125) then false
  else true

/-- `WebSocketMessageKind`. -/
inductive WebSocketMessageKind where
  | none
  | text
  | binary
deriving DecidableEq, Repr

/-- `WebSocketDataFrameAction`. -/
inductive WebSocketDataFrameAction where
  | accumulate
  | accumulateAndComplete
  | drop
  | protocolError
deriving DecidableEq, Repr

/-- `DecideWebSocketDataFrameAction`, with `kind` after it. -/
def decideWebSocketDataFrameAction (opcode : UInt8) (fin : Bool) (kind : WebSocketMessageKind) :
    WebSocketDataFrameAction × WebSocketMessageKind :=
  if opcode = 0 then
    if kind = .none then (.protocolError, kind)
    else
      let after := if fin then .none else kind
      if kind ≠ .text then (.drop, after)
      else (if fin then .accumulateAndComplete else .accumulate, after)
  else if opcode = 1 ∨ opcode = 2 then
    if kind ≠ .none then (.protocolError, kind)
    else if opcode = 2 then (.drop, if fin then .none else .binary)
    else (if fin then .accumulateAndComplete else .accumulate, if fin then .none else .text)
  else (.drop, kind)

/-! ## the buffer -/

/-- What a read from the socket gives: some bytes, no data until the deadline,
or an error, such as a connection closed by the peer. -/
inductive RecvEvent where
  | chunk (first : UInt8) (others : ByteString)
  | timeout
  | failed
deriving DecidableEq, Repr

/-- The members of `WebSocketClient` that receiving works on, and how many pongs it
has written. -/
structure WebSocketClient where
  recvBuffer : ByteString := []
  recvPos : Nat := 0
  assembledMessage : ByteString := []
  messageKind : WebSocketMessageKind := .none
  pongs : Nat := 0
deriving DecidableEq, Repr

/-- How a read or a frame ended: with a value, in a time-out (0), in an error
(-1). -/
inductive Received (α : Type) where
  | ok (value : α)
  | timedOut
  | failed
deriving DecidableEq, Repr

namespace WebSocketClient

/-- `memcpy`, and the buffer compacted once what is consumed dominates it. -/
def consume (client : WebSocketClient) (len : Nat) : ByteString × WebSocketClient :=
  let recvPos := client.recvPos + len
  ((client.recvBuffer.drop client.recvPos).take len,
    if recvPos > 0 ∧ recvPos * 2 > client.recvBuffer.length then
      { client with recvBuffer := client.recvBuffer.drop recvPos, recvPos := 0 }
    else { client with recvPos })

/-- `ReadExact`, with `FillBuffer` as long as there is too little.  No event
left is no data until the deadline. -/
def readExact (client : WebSocketClient) (len : Nat) (events : List RecvEvent) :
    Received ByteString × WebSocketClient × List RecvEvent :=
  if client.recvBuffer.length - client.recvPos < len then
    match events with
    | [] => (.timedOut, client, [])
    | .chunk first others :: events =>
        readExact { client with recvBuffer := client.recvBuffer ++ first :: others } len events
    | .timeout :: events => (.timedOut, client, events)
    | .failed :: events => (.failed, client, events)
  else
    let (bytes, client) := client.consume len
    (.ok bytes, client, events)

/-! ## ReceiveTextMessage -/

/-- `kMaxFramePayload`. -/
def maxFramePayload : Nat := 10 * 1024 * 1024

/-- What one frame gives: a message, or `none` to go on with the next frame. -/
abbrev FrameResult := Received (Option ByteString) × WebSocketClient × List RecvEvent

/-- A read inside a frame: a time-out there is an error. -/
def midFrame (read : Received ByteString × WebSocketClient × List RecvEvent)
    (next : ByteString → WebSocketClient → List RecvEvent → FrameResult) : FrameResult :=
  match read with
  | (.ok bytes, client, events) => next bytes client events
  | (_, client, events) => (.failed, client, events)

/-- The length of the payload, read to its end. -/
def readLength (client : WebSocketClient) (payloadLength7Bit : Nat) (events : List RecvEvent)
    (next : Nat → WebSocketClient → List RecvEvent → FrameResult) : FrameResult :=
  if payloadLength7Bit = 126 then
    midFrame (client.readExact 2 events) fun ext => next (decodeExtendedPayloadLength ext)
  else if payloadLength7Bit = 127 then
    midFrame (client.readExact 8 events) fun ext => next (decodeExtendedPayloadLength ext)
  else next payloadLength7Bit client events

/-- The mask key, of a masked frame. -/
def readMaskKey (client : WebSocketClient) (masked : Bool) (events : List RecvEvent)
    (next : ByteString → WebSocketClient → List RecvEvent → FrameResult) : FrameResult :=
  if masked then midFrame (client.readExact 4 events) next
  else next [0, 0, 0, 0] client events

/-- The payload, unmasked. -/
def readPayload (client : WebSocketClient) (len : Nat) (masked : Bool) (maskKey : ByteString)
    (events : List RecvEvent)
    (next : ByteString → WebSocketClient → List RecvEvent → FrameResult) : FrameResult :=
  if len > 0 then
    midFrame (client.readExact len events) fun payload =>
      next (if masked then unmaskPayload payload maskKey else payload)
  else next [] client events

/-- The `switch` on what to do with a data frame. -/
def actOn (payload : ByteString) (client : WebSocketClient) (events : List RecvEvent) :
    WebSocketDataFrameAction → FrameResult
  | .accumulate =>
      (.ok none, { client with assembledMessage := client.assembledMessage ++ payload }, events)
  | .accumulateAndComplete =>
      (.ok (some (client.assembledMessage ++ payload)), { client with assembledMessage := [] }, events)
  | .drop => (.ok none, client, events)
  | .protocolError => (.failed, client, events)

/-- The `switch` on the opcode. -/
def dispatch (sendOk : Nat → ByteString → Bool) (header : WebSocketFrameHeader)
    (payload : ByteString) (client : WebSocketClient) (events : List RecvEvent) : FrameResult :=
  if header.opcode = 0x9 then
    let answered := { client with pongs := client.pongs + 1 }
    if !sendOk client.pongs payload then (.failed, answered, events)
    else (.ok none, answered, events)
  else if header.opcode = 0xA then (.ok none, client, events)
  else if header.opcode = 0x8 then (.failed, client, events)
  else
    let decided := decideWebSocketDataFrameAction header.opcode header.fin client.messageKind
    actOn payload { client with messageKind := decided.2 } events decided.1

/-- One pass of the loop of `ReceiveTextMessage`. -/
def receiveFrame (sendOk : Nat → ByteString → Bool) (client : WebSocketClient)
    (events : List RecvEvent) : FrameResult :=
  match client.readExact 2 events with
  | (.timedOut, client, events) => (.timedOut, client, events)
  | (.failed, client, events) => (.failed, client, events)
  | (.ok headerBytes, client, events) =>
      let header := parseFrameHeaderBytes headerBytes
      readLength client header.payloadLength7Bit events fun len client events =>
        if !isValidServerFrame header.opcode header.fin header.masked len then
          (.failed, client, events)
        else if len > maxFramePayload ∨ client.assembledMessage.length + len > maxFramePayload then
          (.failed, client, events)
        else
          readMaskKey client header.masked events fun maskKey client events =>
            readPayload client len header.masked maskKey events fun payload client events =>
              dispatch sendOk header payload client events

/-- `return` and `continue`, by what a pass gave. -/
def returnOr (result : FrameResult)
    (next : WebSocketClient → List RecvEvent → Received ByteString × WebSocketClient × List RecvEvent) :
    Received ByteString × WebSocketClient × List RecvEvent :=
  match result with
  | (.ok (some message), client, events) => (.ok message, client, events)
  | (.ok none, client, events) => next client events
  | (.timedOut, client, events) => (.timedOut, client, events)
  | (.failed, client, events) => (.failed, client, events)

/-- `ReceiveTextMessage`, which handles `frames` more frames after the first
before its deadline. -/
def receiveTextMessage (sendOk : Nat → ByteString → Bool) (frames : Nat) (client : WebSocketClient)
    (events : List RecvEvent) : Received ByteString × WebSocketClient × List RecvEvent :=
  returnOr (receiveFrame sendOk client events)
    (match frames with
      | 0 => fun client events => (.timedOut, client, events)
      | frames + 1 => receiveTextMessage sendOk frames)

/-- What a run of calls gave: the messages in order, and whether the last call
ended in an error, after which the connection is closed. -/
structure ReceivedMessages where
  messages : List ByteString
  failed : Bool
deriving DecidableEq, Repr

/-- One call after the other, until one ends in an error. -/
def receiveMessages (sendOk : Nat → ByteString → Bool) (client : WebSocketClient)
    (events : List RecvEvent) : List Nat → ReceivedMessages
  | [] => ⟨[], false⟩
  | frames :: calls =>
      match receiveTextMessage sendOk frames client events with
      | (.ok message, client, events) =>
          let rest := receiveMessages sendOk client events calls
          { rest with messages := message :: rest.messages }
      | (.timedOut, client, events) => receiveMessages sendOk client events calls
      | (.failed, _, _) => ⟨[], true⟩

end WebSocketClient

end DispatcharrPvr
