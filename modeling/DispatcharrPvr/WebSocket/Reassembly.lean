import DispatcharrPvr.WebSocket.Reads

/-!
# WebSocket.Reassembly

A call of `ReceiveTextMessage` handles some of the frames, one after the other,
and leaves the client holding the message those that are left go on with.  So a
run of calls gives the text messages the frames make up.
-/

namespace DispatcharrPvr

/-- The frames arrive in order, with time-outs between them. -/
inductive Delivers : List ServerFrame → List StreamItem → Prop
  | nil : Delivers [] []
  | timeout {frames items} : Delivers frames items → Delivers frames (.timeout :: items)
  | frame {frames items} (frame : ServerFrame) : Delivers frames items →
      Delivers (frame :: frames) (frame.bytes.map .byte ++ items)

/-- After some text messages, what is left goes on with the message held then,
and is no longer than `bound`. -/
structure Continues (sendOk : Nat → ByteString → Bool) (held : Option WebSocketMessage)
    (pongs : Nat) (frames : List ServerFrame) (bound : Nat) (texts : List ByteString)
    (held' : Option WebSocketMessage) (pongs' : Nat) (frames' : List ServerFrame)
    (items' : List StreamItem) : Prop where
  texts_eq : (assemble held frames).texts = texts ++ (assemble held' frames').texts
  broken_eq : (assemble held frames).broken = (assemble held' frames').broken
  controls_iff : ControlsPass sendOk held pongs frames ↔ ControlsPass sendOk held' pongs' frames'
  shorter : items'.length ≤ bound

/-- What a call may come to. -/
inductive Receives (sendOk : Nat → ByteString → Bool) (held : Option WebSocketMessage)
    (pongs : Nat) (frames : List ServerFrame) (bound : Nat) :
    Received ByteString × WebSocketClient × List RecvEvent → Prop
  | message {held' pongs' frames' message client events} : client.Holds held' pongs' →
      Delivers frames' (client.view events) →
      Continues sendOk held pongs frames bound [message] held' pongs' frames'
        (client.view events) →
      Receives sendOk held pongs frames bound (.ok message, client, events)
  | timedOut {held' pongs' frames' client events} : client.Holds held' pongs' →
      Delivers frames' (client.view events) →
      Continues sendOk held pongs frames bound [] held' pongs' frames'
        (client.view events) →
      Receives sendOk held pongs frames bound (.timedOut, client, events)
  | failed {client events} : (ControlsPass sendOk held pongs frames →
        (assemble held frames).texts = [] ∧ (assemble held frames).broken = true) →
      Receives sendOk held pongs frames bound (.failed, client, events)

variable {pongs pongs' pongs'' : Nat}

/-! ## one frame -/

theorem texts_next (completed : Option WebSocketMessage) (assembled : Assembled) :
    Assembled.texts ⟨completed.toList ++ assembled.messages, assembled.broken⟩ =
      (completedText completed).toList ++ assembled.texts := by
  cases completed with
  | none => rfl
  | some message =>
      cases hisText : message.isText <;> simp [Assembled.texts, completedText, hisText]

theorem Continues.frame {sendOk : Nat → ByteString → Bool}
    {held held' completed : Option WebSocketMessage} {frame : ServerFrame}
    (hnext : nextMessage held frame = some (held', completed))
    (hpasses : ¬Refused sendOk held pongs frame) (frames : List ServerFrame)
    (items : List StreamItem) :
    Continues sendOk held pongs (frame :: frames) items.length (completedText completed).toList
      held' (frame.pongsAfter pongs) frames items where
  texts_eq := by rw [assemble_next hnext, texts_next]
  broken_eq := by rw [assemble_next hnext]
  controls_iff := by rw [controlsPass_next hnext, and_iff_right hpasses]
  shorter := Nat.le_refl _

theorem Continues.trans {sendOk : Nat → ByteString → Bool}
    {held held' held'' : Option WebSocketMessage} {frames frames' frames'' : List ServerFrame} {bound : Nat} {items items' : List StreamItem}
    {texts : List ByteString}
    (h : Continues sendOk held pongs frames bound [] held' pongs' frames' items)
    (h' : Continues sendOk held' pongs' frames' items.length texts held'' pongs'' frames'' items') :
    Continues sendOk held pongs frames bound texts held'' pongs'' frames'' items' where
  texts_eq := h.texts_eq.trans h'.texts_eq
  broken_eq := h.broken_eq.trans h'.broken_eq
  controls_iff := h.controls_iff.trans h'.controls_iff
  shorter := Nat.le_trans h'.shorter h.shorter

theorem Receives.after {sendOk : Nat → ByteString → Bool} {held held' : Option WebSocketMessage}
    {frames frames' : List ServerFrame} {bound : Nat} {items : List StreamItem}
    (h : Continues sendOk held pongs frames bound [] held' pongs' frames' items)
    {received : Received ByteString × WebSocketClient × List RecvEvent}
    (h' : Receives sendOk held' pongs' frames' items.length received) :
    Receives sendOk held pongs frames bound received := by
  cases h' with
  | message hholds hdelivers hcontinues => exact .message hholds hdelivers (h.trans hcontinues)
  | timedOut hholds hdelivers hcontinues => exact .timedOut hholds hdelivers (h.trans hcontinues)
  | failed hbroken =>
      refine .failed fun hcontrols => ?_
      obtain ⟨htexts, hbroken⟩ := hbroken (h.controls_iff.mp hcontrols)
      exact ⟨by simpa [htexts] using h.texts_eq, h.broken_eq.trans hbroken⟩

/-- What one pass of the loop on a frame leads to, by what the call does after
it. -/
theorem Receives.frame {sendOk : Nat → ByteString → Bool} {held : Option WebSocketMessage}
    {frame : ServerFrame} {frames : List ServerFrame} {items : List StreamItem}
    (hdelivers : Delivers frames items) {result : WebSocketClient.FrameResult}
    (htakes : Takes sendOk held pongs frame items result)
    {next : WebSocketClient → List RecvEvent → Received ByteString × WebSocketClient × List RecvEvent}
    (hnext : ∀ held' client events, client.Holds held' (frame.pongsAfter pongs) →
      client.view events = items →
      Receives sendOk held' (frame.pongsAfter pongs) frames items.length (next client events)) :
    Receives sendOk held pongs (frame :: frames) items.length
      (WebSocketClient.returnOr result next) := by
  cases htakes with
  | taken hmessage hpasses hview hholds =>
      rename_i held' completed client events
      subst hview
      have hcontinues := Continues.frame hmessage hpasses frames (client.view events)
      cases htext : completedText completed with
      | none =>
          rw [htext] at hcontinues
          exact (hnext held' client events hholds rfl).after hcontinues
      | some text =>
          rw [htext] at hcontinues
          exact .message hholds hdelivers hcontinues
  | givenUp hgivenUp =>
      refine .failed fun hcontrols => ?_
      have hbroken : nextMessage held frame = none := hgivenUp.resolve_right hcontrols.1
      simp [assemble, hbroken, Assembled.texts]

/-! ## one call -/

theorem Receives.mono {sendOk : Nat → ByteString → Bool} {held : Option WebSocketMessage}
    {frames : List ServerFrame} {bound bound' : Nat} (hle : bound ≤ bound')
    {received : Received ByteString × WebSocketClient × List RecvEvent}
    (h : Receives sendOk held pongs frames bound received) :
    Receives sendOk held pongs frames bound' received := by
  cases h with
  | message hholds hdelivers hcontinues =>
      exact .message hholds hdelivers { hcontinues with shorter := Nat.le_trans hcontinues.shorter hle }
  | timedOut hholds hdelivers hcontinues =>
      exact .timedOut hholds hdelivers { hcontinues with shorter := Nat.le_trans hcontinues.shorter hle }
  | failed hbroken => exact .failed hbroken

/-- A pass of the loop, by what the call does after it. -/
theorem receives_pass {client : WebSocketClient} {held : Option WebSocketMessage}
    (h : client.Holds held pongs) (sendOk : Nat → ByteString → Bool) {frames : List ServerFrame}
    {events : List RecvEvent} (hdelivers : Delivers frames (client.view events))
    {next : WebSocketClient → List RecvEvent → Received ByteString × WebSocketClient × List RecvEvent}
    (hnext : ∀ held' pongs' frames' client events, client.Holds held' pongs' →
      Delivers frames' (client.view events) →
      Receives sendOk held' pongs' frames' (client.view events).length (next client events)) :
    Receives sendOk held pongs frames ((client.view events).length - 1)
      (WebSocketClient.returnOr (client.receiveFrame sendOk events) next) := by
  have hpause (hview : ∀ item ∈ (client.view events).head?, item = .timeout)
      (hrest : Delivers frames (client.view events).tail) :
      Receives sendOk held pongs frames ((client.view events).length - 1)
        (WebSocketClient.returnOr (client.receiveFrame sendOk events) next) := by
    obtain ⟨after, events', hreceive, hview', hholds⟩ :=
      WebSocketClient.receiveFrame_timeout h sendOk hview
    rw [← hview'] at hrest
    rw [hreceive]
    exact .timedOut hholds hrest ⟨rfl, rfl, Iff.rfl, by simp [hview']⟩
  generalize hview : client.view events = items at hdelivers
  cases hdelivers with
  | nil => exact hview ▸ hpause (by simp [hview]) (by simpa [hview] using .nil)
  | timeout hrest => exact hview ▸ hpause (by simp [hview]) (by simpa [hview] using hrest)
  | @frame frames items frame hrest =>
      refine (Receives.frame hrest (WebSocketClient.takes_frame h sendOk hview) ?_).mono ?_
      · rintro held' client' events' hholds rfl
        exact hnext held' _ frames client' events' hholds hrest
      · simp only [ServerFrame.bytes, List.cons_append, List.map_cons, List.length_cons,
          Nat.add_sub_cancel, List.length_append]
        omega

/-- A call handles what comes first, and then what is left, up to its deadline. -/
theorem receives_call {client : WebSocketClient} {held : Option WebSocketMessage}
    (h : client.Holds held pongs) (sendOk : Nat → ByteString → Bool) (n : Nat)
    {frames : List ServerFrame} {events : List RecvEvent} (hdelivers : Delivers frames (client.view events)) :
    Receives sendOk held pongs frames ((client.view events).length - 1)
      (client.receiveTextMessage sendOk n events) := by
  induction n generalizing client held pongs frames events with
  | zero =>
      unfold WebSocketClient.receiveTextMessage
      refine receives_pass h sendOk hdelivers ?_
      intro held' pongs' frames' client' events' hholds hdelivers'
      exact .timedOut hholds hdelivers' ⟨rfl, rfl, Iff.rfl, Nat.le_refl _⟩
  | succ n ih =>
      unfold WebSocketClient.receiveTextMessage
      refine receives_pass h sendOk hdelivers ?_
      intro held' pongs' frames' client' events' hholds hdelivers'
      exact (ih hholds hdelivers').mono (Nat.sub_le ..)

/-! ## a run of calls -/

/-- What calls, one after the other, give of the frames that arrive. -/
structure Runs (sendOk : Nat → ByteString → Bool) (held : Option WebSocketMessage)
    (pongs : Nat) (frames : List ServerFrame) (enough : Prop)
    (received : WebSocketClient.ReceivedMessages) : Prop where
  in_order : received.messages <+: (assemble held frames).texts
  failed : ControlsPass sendOk held pongs frames → received.failed = true →
    received.messages = (assemble held frames).texts ∧ (assemble held frames).broken = true
  finished : enough → received.failed = false →
    received.messages = (assemble held frames).texts ∧ (assemble held frames).broken = false ∧
      ControlsPass sendOk held pongs frames

/-- A call's message, if any, comes before those of the calls after it. -/
theorem Runs.after {sendOk : Nat → ByteString → Bool} {held held' : Option WebSocketMessage}
    {frames frames' : List ServerFrame} {left : Nat} {texts : List ByteString}
    {items : List StreamItem}
    (h : Continues sendOk held pongs frames (left - 1) texts held' pongs' frames' items)
    {calls : Nat} {received : WebSocketClient.ReceivedMessages}
    (h' : Runs sendOk held' pongs' frames' (items.length ≤ calls) received) :
    Runs sendOk held pongs frames (left ≤ calls + 1)
      { received with messages := texts ++ received.messages } where
  in_order := by
    rw [h.texts_eq]
    exact (List.prefix_append_right_inj texts).mpr h'.in_order
  failed := by
    intro hcontrols hfailed
    obtain ⟨hmessages, hbroken⟩ := h'.failed (h.controls_iff.mp hcontrols) hfailed
    exact ⟨by rw [h.texts_eq, hmessages], h.broken_eq.trans hbroken⟩
  finished := by
    intro henough hfailed
    have hshorter := h.shorter
    obtain ⟨hmessages, hbroken, hcontrols⟩ := h'.finished (by omega) hfailed
    exact ⟨by rw [h.texts_eq, hmessages], h.broken_eq.trans hbroken, h.controls_iff.mpr hcontrols⟩

theorem Delivers.eq_nil {frames : List ServerFrame} {items : List StreamItem}
    (h : Delivers frames items) (hitems : items = []) : frames = [] := by
  cases h with
  | nil => rfl
  | timeout => exact absurd hitems nofun
  | frame => exact absurd hitems nofun

theorem runs_calls {client : WebSocketClient} {held : Option WebSocketMessage}
    (h : client.Holds held pongs) (sendOk : Nat → ByteString → Bool) (calls : List Nat)
    {frames : List ServerFrame} {events : List RecvEvent}
    (hdelivers : Delivers frames (client.view events)) :
    Runs sendOk held pongs frames ((client.view events).length ≤ calls.length)
      (client.receiveMessages sendOk events calls) := by
  induction calls generalizing client held pongs frames events with
  | nil =>
      refine ⟨List.nil_prefix, fun _ hfailed => absurd hfailed Bool.false_ne_true, ?_⟩
      intro hnone _
      obtain rfl := hdelivers.eq_nil (List.length_eq_zero_iff.mp (Nat.le_zero.mp hnone))
      exact ⟨rfl, rfl, trivial⟩
  | cons n calls ih =>
      have hcall := receives_call h sendOk n hdelivers
      unfold WebSocketClient.receiveMessages
      generalize client.receiveTextMessage sendOk n events = received at hcall
      cases hcall with
      | message hholds hdelivers hcontinues => exact (ih hholds hdelivers).after hcontinues
      | timedOut hholds hdelivers hcontinues => exact (ih hholds hdelivers).after hcontinues
      | failed hbroken =>
          refine ⟨List.nil_prefix, fun hcontrols _ => ?_, fun _ hfailed => absurd hfailed nofun⟩
          obtain ⟨htexts, hbroken⟩ := hbroken hcontrols
          exact ⟨htexts.symm, hbroken⟩

theorem WebSocketClient.holds_start : Holds {} none 0 := ⟨Nat.le_refl _, rfl, rfl, rfl⟩

/-- The messages a client returns are the text messages of the frames that
arrive, in order, without a binary one among them or in them.  Called often
enough, and with no ping or pong refused, it returns all of them, and ends in
an error exactly when it comes to a frame that breaks a rule: never in a valid
stream. -/
theorem web_socket_reassembly (sendOk : Nat → ByteString → Bool) (calls : List Nat)
    {frames : List ServerFrame} {events : List RecvEvent}
    (hdelivers : Delivers frames (WebSocketClient.view {} events)) :
    let received := WebSocketClient.receiveMessages sendOk {} events calls
    let assembled := assemble none frames
    received.messages <+: assembled.texts ∧
    (ControlsPass sendOk none 0 frames →
      (received.failed = true → received.messages = assembled.texts ∧ assembled.broken = true) ∧
      ((WebSocketClient.view {} events).length ≤ calls.length →
        received = ⟨assembled.texts, assembled.broken⟩ ∧
        ∀ messages, Carries frames messages →
          received = ⟨(messages.filter (·.isText)).map (·.payload), false⟩)) := by
  obtain ⟨hinorder, hfailed, hfinished⟩ := runs_calls WebSocketClient.holds_start sendOk calls hdelivers
  refine ⟨hinorder, fun hcontrols => ⟨hfailed hcontrols, fun henough => ?_⟩⟩
  have hall : WebSocketClient.receiveMessages sendOk {} events calls =
      ⟨(assemble none frames).texts, (assemble none frames).broken⟩ := by
    rw [WebSocketClient.ReceivedMessages.mk.injEq]
    cases hcase : (WebSocketClient.receiveMessages sendOk {} events calls).failed with
    | false =>
        obtain ⟨hmessages, hbroken, -⟩ := hfinished henough hcase
        exact ⟨hmessages, hbroken.symm⟩
    | true =>
        obtain ⟨hmessages, hbroken⟩ := hfailed hcontrols hcase
        exact ⟨hmessages, hbroken.symm⟩
  refine ⟨hall, fun messages hcarries => ?_⟩
  rw [hall, assemble_carries hcarries]
  rfl

/-! ## a stream -/

theorem delivers_bytes (frames : List ServerFrame) :
    Delivers frames ((frames.flatMap ServerFrame.bytes).map .byte) := by
  induction frames with
  | nil => exact .nil
  | cons frame frames ih =>
      rw [List.flatMap_cons, List.map_append]
      exact .frame frame ih

/-- The frames, every byte in a chunk of its own. -/
def dripped (frames : List ServerFrame) : List RecvEvent :=
  (frames.flatMap ServerFrame.bytes).map fun b => .chunk b []

theorem view_dripped (frames : List ServerFrame) :
    WebSocketClient.view {} (dripped frames) = (frames.flatMap ServerFrame.bytes).map .byte := by
  have hitems (bytes : ByteString) :
      bytes.flatMap (fun b => RecvEvent.items (.chunk b [])) = bytes.map .byte :=
    List.map_eq_flatMap.symm
  simp only [WebSocketClient.view, WebSocketClient.unread, dripped, List.flatMap_map, hitems,
    List.drop_nil, List.map_nil, List.nil_append]

theorem delivers_dripped (frames : List ServerFrame) :
    Delivers frames (WebSocketClient.view {} (dripped frames)) := by
  rw [view_dripped]
  exact delivers_bytes frames

/-- A text message in two fragments, with a ping between them, and a binary
one. -/
def exampleFrames : List ServerFrame :=
  [⟨false, .text, [97], .sixteenBits, by decide⟩, ⟨true, .ping, [1], .sevenBits, by decide⟩,
    ⟨true, .continuation, [98], .sixtyFourBits, by decide⟩,
    ⟨true, .binary, [99], .sevenBits, by decide⟩]

theorem exampleFrames_carries : Carries exampleFrames [⟨true, [97, 98]⟩, ⟨false, [99]⟩] where
  fragmented := by
    refine ⟨[[exampleFrames[0], exampleFrames[2]], [exampleFrames[3]]], ?_, rfl⟩
    exact .cons ⟨rfl, rfl, rfl⟩ (.cons ⟨rfl, rfl, rfl⟩ .nil)
  controls := by decide
  frames_fit := by decide
  texts_fit := by decide

theorem web_socket_reassembly_fragmented :
    WebSocketClient.receiveMessages (fun _ _ => true) {} (dripped exampleFrames)
      (List.replicate 22 0) = ⟨[[97, 98]], false⟩ :=
  ((web_socket_reassembly (fun _ _ => true) (List.replicate 22 0) (delivers_dripped exampleFrames)).2
    (by decide)).2 (by decide) |>.2 _ exampleFrames_carries

/-- What a client returns of these frames, called often enough. -/
def receiveAll (sendOk : Nat → ByteString → Bool) (frames : List ServerFrame) :
    WebSocketClient.ReceivedMessages :=
  WebSocketClient.receiveMessages sendOk {} (dripped frames)
    (List.replicate (WebSocketClient.view {} (dripped frames)).length 0)

theorem runs_receiveAll (sendOk : Nat → ByteString → Bool) (frames : List ServerFrame) :
    Runs sendOk none 0 frames True (receiveAll sendOk frames) := by
  obtain ⟨hinorder, hfailed, hfinished⟩ := runs_calls WebSocketClient.holds_start sendOk
    (List.replicate (WebSocketClient.view {} (dripped frames)).length 0) (delivers_dripped frames)
  exact ⟨hinorder, hfailed, fun _ => hfinished (Nat.le_of_eq List.length_replicate.symm)⟩

theorem overCap_full {payload : ByteString}
    (hfull : payload.length = WebSocketClient.maxFramePayload) :
    overCap payload.length = false := by
  rw [hfull]
  decide

section full

variable {payload : ByteString} (hfull : payload.length = WebSocketClient.maxFramePayload)

/-- The first frame of a message, of as many bytes as there can be. -/
def fullFrame (opcode : ServerOpcode) : ServerFrame :=
  ⟨false, opcode, payload, .sixtyFourBits, hfull ▸ by decide⟩

/-- The message it begins. -/
theorem nextMessage_fullFrame {opcode : ServerOpcode} {isText : Bool}
    (hbegin : beginMessage none opcode = some ⟨isText, []⟩) :
    nextMessage none (fullFrame hfull opcode) = some (some ⟨isText, payload⟩, none) := by
  have hframe : overCap (fullFrame hfull opcode).payload.length = false := overCap_full hfull
  have hbegin : beginMessage none (fullFrame hfull opcode).opcode = some ⟨isText, []⟩ := hbegin
  rw [nextMessage_begun hbegin hframe fun _ => hframe]
  rfl

/-- A text message as long as there can be, with a ping in it. -/
def fullTextFrames : List ServerFrame :=
  [fullFrame hfull .text, ⟨true, .ping, [1], .sevenBits, by decide⟩,
    ⟨true, .continuation, [], .sevenBits, by decide⟩]

/-- A binary message longer than that. -/
def longBinaryFrames : List ServerFrame :=
  [fullFrame hfull .binary, ⟨true, .continuation, [1], .sevenBits, by decide⟩]

theorem fullTextFrames_carries : Carries (fullTextFrames hfull) [⟨true, payload⟩] where
  fragmented := by
    refine ⟨[[fullFrame hfull .text, ⟨true, .continuation, [], .sevenBits, by decide⟩]], ?_, rfl⟩
    exact .cons ⟨rfl, rfl, (List.append_nil payload).symm⟩ .nil
  controls := by
    simp only [fullTextFrames, List.forall_mem_cons]
    exact ⟨nofun, fun _ => by decide, nofun, nofun⟩
  frames_fit := by
    simp only [fullTextFrames, List.forall_mem_cons]
    exact ⟨overCap_full hfull, by decide, by decide, nofun⟩
  texts_fit := by
    simp only [List.forall_mem_cons]
    exact ⟨fun _ => overCap_full hfull, nofun⟩

/-- The ping does not fit any more. -/
theorem fullTextFrames_received (sendOk : Nat → ByteString → Bool) :
    receiveAll sendOk (fullTextFrames hfull) = ⟨[], true⟩ := by
  unfold receiveAll
  have hview : WebSocketClient.view {} (dripped (fullTextFrames hfull)) =
      (fullFrame hfull .text).bytes.map .byte ++
        ((⟨true, .ping, [1], .sevenBits, by decide⟩ : ServerFrame).bytes.map .byte ++
          (⟨true, .continuation, [], .sevenBits, by decide⟩ : ServerFrame).bytes.map .byte) := by
    simp [view_dripped, fullTextFrames]
  obtain ⟨client, events, hfirst, hview₁, hholds⟩ := WebSocketClient.receiveFrame_next
    WebSocketClient.holds_start sendOk hview (nextMessage_fullFrame hfull rfl) (not_refused rfl)
  have htoolong : overCap ((heldText (some ⟨true, payload⟩)).length + 1) = true := by
    simp only [heldText, if_true, hfull]
    decide
  obtain ⟨client', events', hsecond⟩ :=
    WebSocketClient.receiveFrame_unchecked hholds sendOk hview₁ (.inr (.inr htoolong))
  have hlength : ∃ k, (WebSocketClient.view {} (dripped (fullTextFrames hfull))).length = k + 2 := by
    rw [hview]
    exact ⟨_, by rw [ServerFrame.bytes]; rfl⟩
  obtain ⟨k, hk⟩ := hlength
  simp only [hk, List.replicate_succ, WebSocketClient.receiveMessages,
    WebSocketClient.receiveTextMessage, WebSocketClient.returnOr, hfirst, completedText, hsecond]

theorem longBinaryFrames_fragmented :
    IsFragmented ⟨false, payload ++ [1]⟩ (longBinaryFrames hfull) :=
  ⟨rfl, rfl, rfl⟩

/-- The binary one is received like any other. -/
theorem longBinaryFrames_received (sendOk : Nat → ByteString → Bool) :
    receiveAll sendOk (longBinaryFrames hfull) = ⟨[], false⟩ := by
  have hlast : nextMessage (some ⟨false, payload⟩) ⟨true, .continuation, [1], .sevenBits, by decide⟩ =
      some (none, some ⟨false, payload ++ [1]⟩) := by
    rw [nextMessage_begun rfl (by decide) (fun hisText => absurd hisText Bool.false_ne_true)]
    rfl
  have hassemble : assemble none (longBinaryFrames hfull) = ⟨[⟨false, payload ++ [1]⟩], false⟩ := by
    unfold longBinaryFrames
    rw [assemble_next (nextMessage_fullFrame hfull rfl), assemble_next hlast]
    rfl
  have hcontrols : ControlsPass sendOk none 0 (longBinaryFrames hfull) := by
    unfold longBinaryFrames
    rw [controlsPass_next (nextMessage_fullFrame hfull rfl)]
    exact ⟨not_refused rfl, not_refused rfl, fun _ _ => trivial⟩
  obtain ⟨-, hfailed, hfinished⟩ := runs_receiveAll sendOk (longBinaryFrames hfull)
  rw [hassemble] at hfailed hfinished
  rw [WebSocketClient.ReceivedMessages.mk.injEq]
  cases hcase : (receiveAll sendOk (longBinaryFrames hfull)).failed with
  | false => exact ⟨(hfinished trivial hcase).1, rfl⟩
  | true => exact absurd (hfailed hcontrols hcase).2 Bool.false_ne_true

end full

theorem length_fullPayload :
    (List.replicate WebSocketClient.maxFramePayload (0 : UInt8)).length =
      WebSocketClient.maxFramePayload :=
  List.length_replicate

/-- A ping may cut off a text message that is not too long, as may one that
cannot be answered, and a binary message may be too long. -/
theorem web_socket_reassembly_capped :
    (Carries (fullTextFrames length_fullPayload)
        [⟨true, List.replicate WebSocketClient.maxFramePayload 0⟩] ∧
      receiveAll (fun _ _ => true) (fullTextFrames length_fullPayload) = ⟨[], true⟩) ∧
    (Carries exampleFrames [⟨true, [97, 98]⟩, ⟨false, [99]⟩] ∧
      receiveAll (fun _ _ => false) exampleFrames = ⟨[], true⟩) ∧
    IsFragmented ⟨false, List.replicate WebSocketClient.maxFramePayload 0 ++ [1]⟩
        (longBinaryFrames length_fullPayload) ∧
      overCap (List.replicate WebSocketClient.maxFramePayload 0 ++ [(1 : UInt8)]).length = true ∧
      receiveAll (fun _ _ => true) (longBinaryFrames length_fullPayload) = ⟨[], false⟩ := by
  refine ⟨⟨fullTextFrames_carries length_fullPayload, fullTextFrames_received length_fullPayload _⟩,
    ⟨exampleFrames_carries, by decide +kernel⟩, longBinaryFrames_fragmented length_fullPayload, ?_,
    longBinaryFrames_received length_fullPayload _⟩
  rw [List.length_append, length_fullPayload]
  decide

end DispatcharrPvr
