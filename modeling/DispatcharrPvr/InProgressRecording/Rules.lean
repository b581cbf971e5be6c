import DispatcharrPvr.InProgressRecording.Steps

/-!
# InProgressRecording.Rules

The rules by which the calls are shown to conduct themselves: for a command that
is not about its call, for the two mutexes, and for the refresh, which finds the
stream at its end as it was at its beginning.
-/

namespace DispatcharrPvr

namespace RecordingClient

open Interleaving Interleaving.Program Interleaving.Discipline InProgressStream

/-- How the calls conduct themselves. -/
def conduct (S : Setting) : Discipline (machine S.server S.calls) where
  inv := Inv S
  rely := Rely
  allowed _ _ := supposed S.content
  allowedEnv _ _ := True
  promise := Promise S
  rely_refl := Rely.refl
  rely_trans := Rely.trans

variable {S : Setting} {t : CallId} {α β : Type}

/-- No command raises a failure. -/
theorem exec_ok {server : Server} {c c' : Client} {cmd : Cmd} {choice : Choice}
    {r : Except Failure cmd.Answer} (h : c.exec server t cmd choice = some (c', r)) :
    ∃ a, r = .ok a := by
  cases cmd
  case lockCurl | lockRefresh | enter =>
    simp only [Client.exec] at h
    split at h
    · contradiction
    · exact ⟨_, (Prod.mk.inj (Option.some.inj h)).2.symm⟩
  case tryLockRefresh | withoutPlaylist | beginProbes | mergeProbed | beginSeek =>
    simp only [Client.exec] at h
    split at h <;> exact ⟨_, (Prod.mk.inj (Option.some.inj h)).2.symm⟩
  all_goals exact ⟨_, (Prod.mk.inj (Option.some.inj h)).2.symm⟩

/-- A step of a call is fair. -/
theorem sound (S : Setting) : (conduct S).Sound where
  fair hinv hpromise _ hexec :=
    ⟨Inv.step hinv (exec_effect hinv hpromise hexec), fun _ hne =>
      Rely.step hinv (exec_effect hinv hpromise hexec) hne⟩
  ok := exec_ok

/-! ## what lasts -/

/-- What stays whichever mutexes the call holds. -/
def Lasting (t : CallId) (K : Client → Prop) : Prop := ∀ c c', K c → Sees t c c' → K c'

/-- What stays while the call holds the refresh mutex. -/
def Frozen (t : CallId) (K : Client → Prop) : Prop :=
  ∀ c c', c.refreshOwner = some t → K c → Rely t c c' → K c'

/-- The mutexes that a call holds, and what it knows. -/
def Knows (t : CallId) (curl refresh : Bool) (K : Client → Prop) (c : Client) : Prop :=
  Holds t curl refresh c ∧ K c

/-- A call that holds neither mutex. -/
abbrev Free (t : CallId) (K : Client → Prop) : Client → Prop := Knows t false false K

section Lasting

variable {curl refresh : Bool} {K K' : Client → Prop}

theorem Lasting.and (h : Lasting t K) (h' : Lasting t K') : Lasting t fun c => K c ∧ K' c :=
  fun c c' hK hsees => ⟨h c c' hK.1 hsees, h' c c' hK.2 hsees⟩

theorem Lasting.frozen (h : Lasting t K) : Frozen t K := fun c c' _ hK hrely =>
  h c c' hK hrely.toSees

theorem Frozen.and (h : Frozen t K) (h' : Frozen t K') : Frozen t fun c => K c ∧ K' c :=
  fun c c' howner hK hrely => ⟨h c c' howner hK.1 hrely, h' c c' howner hK.2 hrely⟩

theorem Lasting.stable (h : Lasting t K) : (conduct S).Stable t (Knows t curl refresh K) := by
  rintro c c' ⟨hholds, hK⟩ hrely
  have hrely' : Rely t c c' := hrely
  exact ⟨⟨hrely'.curl.trans hholds.curl, hrely'.refresh.trans hholds.refresh⟩,
    h c c' hK hrely'.toSees⟩

theorem Frozen.stable (h : Frozen t K) : (conduct S).Stable t (Knows t curl true K) := by
  rintro c c' ⟨hholds, hK⟩ hrely
  have hrely' : Rely t c c' := hrely
  exact ⟨⟨hrely'.curl.trans hholds.curl, hrely'.refresh.trans hholds.refresh⟩,
    h c c' (hholds.refresh.mpr rfl) hK hrely'⟩

theorem lasting_clock (clock : Int) : Lasting t fun c => clock ≤ c.clock :=
  fun _ _ h hsees => Int.le_trans h hsees.clock

theorem lasting_session (session : Nat) : Lasting t fun c => session ≤ c.session :=
  fun _ _ h hsees => Nat.le_trans h hsees.session

theorem lasting_given (A : Prop) : Lasting t fun _ => A := fun _ _ h _ => h

/-- The content of the stream is not known to be gone. -/
theorem frozen_stays : Frozen t fun c => c.stream.contentGone = false :=
  fun _ _ howner h hrely => hrely.stays howner h

theorem frozen_asking (asked : AskedPlaylist) : Frozen t (Asking asked) := by
  rintro c c' howner ⟨hsince, hasks⟩ hrely
  have hlater := hrely.session
  refine ⟨by omega, fun hsession hopen => ?_⟩
  have hsame : c'.session = c.session := by omega
  obtain ⟨hopened, hid, -⟩ := hrely.same hsame
  have hspace := hrely.frozen howner hsame
  obtain ⟨hasked, hstays, hsegments⟩ := hasks (by omega) (hopened.symm.trans hopen)
  exact ⟨hid.trans hasked, (congrArg (·.contentGone) hspace).trans hstays, by
    rw [show c'.stream.segments = c.stream.segments from congrArg (·.segments) hspace]
    exact hsegments⟩

/-- What the probes are made for. -/
def Sizing (S : Setting) (asked : AskedPlaylist) (playlistText : ByteString)
    (pending : List M3u8SegmentEntry) (probedCount : Nat) (c : Client) : Prop :=
  asked.session ≤ c.session ∧ (c.session = asked.session →
    Sized (S.source asked.recordingId) playlistText pending probedCount c)

/-- What a call notes of its refresh is no matter of the stream. -/
theorem Asking.noted {asked : AskedPlaylist} {c : Client} (h : Asking asked c)
    (inquiry : Option Inquiry) : Asking asked (c.noted t inquiry) :=
  ⟨h.1, fun hsession hopen =>
    let hasks := h.2 hsession hopen
    ⟨hasks.recordingId, hasks.stays, hasks.haveSegments⟩⟩

theorem frozen_inquires (inquiry : Inquiry) : Frozen t (Inquires t inquiry) :=
  fun c c' howner h hrely =>
    ⟨frozen_asking inquiry.asked c c' howner h.asking hrely, hrely.inquiry.trans h.noted⟩

theorem Sizing.noted {asked : AskedPlaylist} {playlistText : ByteString}
    {pending : List M3u8SegmentEntry} {probedCount : Nat} {c : Client}
    (h : Sizing S asked playlistText pending probedCount c) (inquiry : Option Inquiry) :
    Sizing S asked playlistText pending probedCount (c.noted t inquiry) :=
  ⟨h.1, fun hsession =>
    let hsized := h.2 hsession
    ⟨hsized.entries, hsized.count⟩⟩

theorem frozen_sizing (asked : AskedPlaylist) (playlistText : ByteString)
    (pending : List M3u8SegmentEntry) (probedCount : Nat) :
    Frozen t (Sizing S asked playlistText pending probedCount) := by
  rintro c c' howner ⟨hsince, hsized⟩ hrely
  have hlater := hrely.session
  refine ⟨by omega, fun hsession => ?_⟩
  have hspace := hrely.frozen howner (by omega)
  obtain ⟨hentries, hcount⟩ := hsized (by omega)
  exact ⟨by
    rw [show c'.stream.segments = c.stream.segments from congrArg (·.segments) hspace]
    exact hentries, by
    rw [show c'.stream.unprobeableSegment = c.stream.unprobeableSegment from
      congrArg (·.unprobeableSegment) hspace]
    exact hcount⟩

end Lasting

/-! ## commands -/

/-- One command, as promised. -/
theorem keeps_call {P : Client → Prop} {cmd : Cmd} {Q : cmd.Answer → Client → Prop}
    (hP : (conduct S).Stable t P) (hpromise : ∀ c, Inv S c → P c → Promise S t c cmd)
    (hQ : ∀ c choice c' a, Inv S c → P c → supposed S.content cmd choice →
      Inv S c' → c.exec S.server t cmd choice = some (c', .ok a) → Q a c') :
    (conduct S).Keeps t P (call cmd) (To Q) :=
  (sound S).keeps hP hpromise hQ

/-- A command that says nothing of the call that runs it. -/
def Quiet : Cmd → Prop
  | .lockCurl | .unlockCurl | .lockRefresh | .tryLockRefresh | .unlockRefresh | .enter | .leave
  | .reset | .setOpen .. | .beginAsk .. | .lookup _ | .fetchPlaylist _ | .withoutPlaylist ..
  | .probe .. | .mergeProbed .. | .beginFetch .. | .endFetch .. | .afterKey .. | .answer .. => False
  | _ => True

/-- It might as well be another call's. -/
theorem Quiet.rely {c c' : Client} {cmd : Cmd} {choice : Choice} {r : Except Failure cmd.Answer}
    (hquiet : Quiet cmd) (hinv : Inv S c) (hpromise : Promise S t c cmd)
    (h : c.exec S.server t cmd choice = some (c', r)) : Rely t c c' := by
  have hpromise' : Promise S (t + 1) c cmd := by
    cases cmd <;> first | exact hpromise | exact hquiet.elim
  have hexec : c.exec S.server (t + 1) cmd choice = some (c', r) := by
    rw [← h]
    cases cmd <;> first | rfl | exact hquiet.elim
  exact Rely.step hinv (exec_effect hinv hpromise' hexec) (Nat.ne_of_lt (Nat.lt_succ_self t))

section Quiet

variable {curl refresh : Bool} {K : Client → Prop}

/-- A quiet command leaves what its call knows. -/
theorem keeps_ask {cmd : Cmd} {A : cmd.Answer → Client → Prop} (hquiet : Quiet cmd)
    (hK : (conduct S).Stable t (Knows t curl refresh K))
    (hpromise : ∀ c, Inv S c → K c → Promise S t c cmd)
    (hA : ∀ c choice c' a, Inv S c → K c → supposed S.content cmd choice →
      Inv S c' → c.exec S.server t cmd choice = some (c', .ok a) → A a c') :
    (conduct S).Keeps t (Knows t curl refresh K) (call cmd)
      (To fun a => Knows t curl refresh fun c => K c ∧ A a c) := by
  refine ((sound S).asks hK (fun c hinv hc => hpromise c hinv hc.2)
    (fun c _ c' _ hinv hc hexec => hquiet.rely hinv (hpromise c hinv hc.2) hexec)
    fun c choice c' a hinv hc => hA c choice c' a hinv hc.2).post ?_
  exact To.mono fun _ _ h => ⟨h.1.1, h.1.2, h.2⟩

/-- The same, of a command that promises nothing and whose answer is of no matter. -/
theorem keeps_idly {cmd : Cmd} (hquiet : Quiet cmd)
    (hK : (conduct S).Stable t (Knows t curl refresh K))
    (hpromise : ∀ c, K c → Promise S t c cmd) :
    (conduct S).Keeps t (Knows t curl refresh K) (call cmd)
      (To fun _ => Knows t curl refresh K) :=
  (keeps_ask (A := fun _ _ => True) hquiet hK (fun c _ => hpromise c)
    fun _ _ _ _ _ _ _ _ _ => trivial).post (To.mono fun _ _ h => ⟨h.1, h.2.1⟩)

/-- The clock is read. -/
theorem keeps_now (hK : Lasting t K) :
    (conduct S).Keeps t (Knows t curl refresh K) (call .now)
      (To fun (now : Int) => Knows t curl refresh fun c => K c ∧ now ≤ c.clock) :=
  keeps_ask trivial hK.stable (fun _ _ _ => trivial) fun c _ c' a _ _ _ _ hexec => by
    obtain ⟨rfl, ha⟩ := Prod.mk.inj (Option.some.inj hexec)
    exact Int.le_of_eq (Except.ok.inj ha).symm

end Quiet

/-! ## the two mutexes -/

section Mutexes

variable {K : Client → Prop} {curl : Bool}

theorem keeps_lockCurl (hK : Lasting t K) :
    (conduct S).Keeps t (Free t K) (call .lockCurl) (To fun _ => Knows t true false K) := by
  refine keeps_call hK.stable (fun c _ hc => ?_) fun c choice c' a _ hc _ _ hexec => ?_
  · simp [Promise, hc.1.curl, hc.1.refresh]
  · simp only [Client.exec] at hexec
    split at hexec
    · contradiction
    · obtain ⟨rfl, -⟩ := Prod.mk.inj (Option.some.inj hexec)
      exact ⟨⟨by simp, hc.1.refresh⟩, hK _ _ hc.2 { Sees.refl t c with }⟩

theorem keeps_unlockCurl (hK : Lasting t K) :
    (conduct S).Keeps t (Knows t true false K) (call .unlockCurl) (To fun _ => Free t K) := by
  refine keeps_call hK.stable (fun c _ hc => hc.1.curl.mpr rfl) fun c choice c' a _ hc _ _ hexec => ?_
  obtain ⟨rfl, -⟩ := Prod.mk.inj (Option.some.inj hexec)
  exact ⟨⟨by simp, hc.1.refresh⟩, hK _ _ hc.2 { Sees.refl t c with }⟩

theorem keeps_lockRefresh (hK : Lasting t K) :
    (conduct S).Keeps t (Free t K) (call .lockRefresh) (To fun _ => Knows t false true K) := by
  refine keeps_call hK.stable (fun c _ hc => ?_) fun c choice c' a _ hc _ _ hexec => ?_
  · simp [Promise, hc.1.curl, hc.1.refresh]
  · simp only [Client.exec] at hexec
    split at hexec
    · contradiction
    · obtain ⟨rfl, -⟩ := Prod.mk.inj (Option.some.inj hexec)
      exact ⟨⟨hc.1.curl, by simp⟩, hK _ _ hc.2 { Sees.refl t c with }⟩

theorem keeps_tryLockRefresh (hK : Lasting t K) :
    (conduct S).Keeps t (Knows t curl false K) (call .tryLockRefresh)
      (To fun locked => Knows t curl locked K) := by
  refine keeps_call hK.stable (fun c _ hc => ?_) fun c choice c' a _ hc _ _ hexec => ?_
  · simp [Promise, hc.1.refresh]
  · simp only [Client.exec] at hexec
    split at hexec
    · obtain ⟨rfl, ha⟩ := Prod.mk.inj (Option.some.inj hexec)
      obtain rfl := Except.ok.inj ha
      exact hc
    · obtain ⟨rfl, ha⟩ := Prod.mk.inj (Option.some.inj hexec)
      obtain rfl := Except.ok.inj ha
      exact ⟨⟨hc.1.curl, by simp⟩, hK _ _ hc.2 { Sees.refl t c with }⟩

theorem keeps_unlockRefresh (hK : Lasting t K) :
    (conduct S).Keeps t (Knows t curl true K) (call .unlockRefresh)
      (To fun _ => Knows t curl false K) := by
  refine keeps_call hK.stable (fun c _ hc => hc.1.refresh.mpr rfl)
    fun c choice c' a _ hc _ _ hexec => ?_
  obtain ⟨rfl, -⟩ := Prod.mk.inj (Option.some.inj hexec)
  exact ⟨⟨hc.1.curl, by simp⟩, hK _ _ hc.2 { Sees.refl t c with }⟩

end Mutexes

/-! ## the refresh -/

section Refresh

variable {K : Client → Prop} {curl : Bool} {asked : AskedPlaylist} {inquiry : Inquiry}
  {lookup : RecordingLookup} {playlistText : ByteString} {pending : List M3u8SegmentEntry}
  {probedCount : Nat}

theorem keeps_keepAlive (hK : Frozen t K) :
    (conduct S).Keeps t (Knows t curl true K) maybeSendInProgressHlsKeepAlive
      (To fun _ => Knows t curl true K) := by
  have hidly : ∀ {cmd : Cmd}, Quiet cmd → (∀ c, Promise S t c cmd) →
      (conduct S).Keeps t (Knows t curl true K) (call cmd) (To fun _ => Knows t curl true K) :=
    fun hquiet hpromise => keeps_idly hquiet hK.stable fun c _ => hpromise c
  refine keeps_then (hidly trivial fun _ => trivial) fun due => ?_
  cases due with
  | none => exact keeps_done fun c hc => hc
  | some due =>
      obtain ⟨session, url⟩ := due
      refine keeps_then (hidly trivial fun _ => trivial) fun sent => ?_
      cases sent with
      | none => exact keeps_done fun c hc => hc
      | some outcome => exact hidly trivial fun _ => trivial

/-- What is asked about is the stream as it is. -/
theorem keeps_beginAsk (hK : Lasting t K) (force coldStart : Bool) :
    (conduct S).Keeps t (Knows t curl true fun c => K c ∧ c.stream.contentGone = false)
      (call (.beginAsk force coldStart))
      (To fun a => Knows t curl true fun c => K c ∧
        ∀ asked, a = some (some asked) → Inquires t { asked } c) := by
  refine keeps_call (hK.frozen.and frozen_stays).stable (fun _ _ _ => trivial)
    fun c choice c' a _ hc _ _ hexec => ?_
  obtain ⟨rfl, hasked⟩ := Prod.mk.inj (Option.some.inj hexec)
  have hkept : Kept (S.content c.session) c.stream
      (c.stream.beginAsk c.clock c.session force coldStart).1 := kept_beginAsk
  have hput : Rely t c (c.put (c.stream.beginAsk c.clock c.session force coldStart).1) :=
    Rely.put hkept
  refine ⟨⟨hc.1.curl, hc.1.refresh⟩, hK _ _ hc.2.1 (hput.toSees.trans (Sees.noted t _)),
    fun asked ha => ?_⟩
  have hfound := (Except.ok.inj hasked).trans ha
  obtain ⟨-, hsession, hid, hsegments⟩ := beginAsk_asked hfound
  refine ⟨⟨Nat.le_of_eq hsession, fun _ _ => ⟨hkept.recordingId.trans hid.symm,
    (congrArg (·.contentGone) hkept.space).trans hc.2.2, ?_⟩⟩, ?_⟩
  · rw [hsegments]
    exact congrArg (fun st => !st.segments.isEmpty) hkept.space.symm
  · simp [Client.noted, hfound]

/-- A request of the refresh is answered. -/
theorem keeps_hears {cmd : Cmd} {f : cmd.Answer → Inquiry → Inquiry} (hK : Frozen t K)
    (hnoted : ∀ c i, K c → K (c.noted t i)) (hpromise : ∀ c, Promise S t c cmd)
    (hexec : ∀ (c : Client) choice c' a, c.exec S.server t cmd choice = some (c', .ok a) →
      c' = c.hears t (f a))
    (hasked : ∀ a, (f a inquiry).asked = inquiry.asked) :
    (conduct S).Keeps t (Knows t curl true fun c => K c ∧ Inquires t inquiry c) (call cmd)
      (To fun a => Knows t curl true fun c => K c ∧ Inquires t (f a inquiry) c) := by
  refine keeps_call (hK.and (frozen_inquires inquiry)).stable (fun c _ _ => hpromise c)
    fun c choice c' a _ hc _ _ hstep => ?_
  obtain rfl := hexec c choice c' a hstep
  refine ⟨⟨hc.1.curl, hc.1.refresh⟩, hnoted c _ hc.2.1, ?_, ?_⟩
  · rw [hasked]
    exact hc.2.2.asking.noted _
  · simp [Client.hears, Client.noted, hc.2.2.noted]

/-- The end of a refresh, without a playlist. -/
theorem keeps_withoutPlaylist (hK : Lasting t K) (wasNotFound : Bool)
    (hlookup : shouldSkipPlaylistAfterUnansweredLookup asked.coldStart asked.haveSegments lookup =
      false) :
    (conduct S).Keeps t
      (Knows t curl true fun c => K c ∧
        Inquires t { asked, lookup := some lookup, playlist := some (.failed wasNotFound) } c)
      (call (.withoutPlaylist asked lookup wasNotFound)) (To fun _ => Knows t curl true K) := by
  refine keeps_call (hK.frozen.and (frozen_inquires _)).stable
    (fun c _ hc => ⟨hc.1.refresh.mpr rfl, hc.2.2, hlookup⟩)
    fun c choice c' a _ hc _ _ hexec => ?_
  simp only [Client.exec] at hexec
  split at hexec
  · obtain ⟨rfl, -⟩ := Prod.mk.inj (Option.some.inj hexec)
    refine ⟨⟨hc.1.curl, hc.1.refresh⟩, hK _ _ hc.2.1 ?_⟩
    refine Sees.refreshed t (sameReader_withoutPlaylist wasNotFound) ?_
    rw [segments_withoutPlaylist]
  · obtain ⟨rfl, -⟩ := Prod.mk.inj (Option.some.inj hexec)
    exact ⟨hc.1, hc.2.1⟩

theorem keeps_beginProbes (hK : Lasting t K) :
    (conduct S).Keeps t (Knows t curl true fun c => K c ∧ Inquires t inquiry c)
      (call (.beginProbes inquiry.asked playlistText))
      (To fun a => Knows t curl true fun c => (K c ∧ Inquires t inquiry c) ∧
        ∀ found, a = some found → Sizing S inquiry.asked playlistText found.1 found.2 c) := by
  refine keeps_ask trivial (hK.frozen.and (frozen_inquires inquiry)).stable (fun _ _ _ => trivial)
    fun c choice c' a _ hc _ _ hexec found ha => ?_
  subst ha
  simp only [Client.exec] at hexec
  split at hexec
  · obtain ⟨rfl, hfound⟩ := Prod.mk.inj (Option.some.inj hexec)
    obtain rfl := Option.some.inj (Except.ok.inj hfound)
    exact ⟨hc.2.asking.1, fun _ => ⟨rfl, rfl⟩⟩
  · obtain ⟨-, hfound⟩ := Prod.mk.inj (Option.some.inj hexec)
    cases Except.ok.inj hfound

/-- The sizes that the probes came to. -/
theorem keeps_probe (hK : Frozen t K) (hnoted : ∀ c i, K c → K (c.noted t i)) :
    (conduct S).Keeps t (Knows t curl true fun c => K c ∧ Inquires t inquiry c)
      (call (.probe pending probedCount))
      (To fun sizes => Knows t curl true fun c =>
        (K c ∧ SizesOf pending probedCount sizes) ∧ Inquires t { inquiry with sizes } c) := by
  refine keeps_call (hK.and (frozen_inquires inquiry)).stable (fun _ _ _ => trivial)
    fun c choice c' sizes _ hc _ _ hexec => ?_
  obtain ⟨rfl, hsizes⟩ := Prod.mk.inj (Option.some.inj hexec)
  obtain rfl := Except.ok.inj hsizes
  refine ⟨⟨hc.1.curl, hc.1.refresh⟩, ⟨hnoted c _ hc.2.1, _, rfl⟩, hc.2.2.asking.noted _, ?_⟩
  simp [Client.hears, Client.noted, hc.2.2.noted]

/-- The end of a refresh, with the sizes of the new entries. -/
theorem keeps_mergeProbed (hK : Lasting t K) (sizes : List Int)
    (hlookup : shouldSkipPlaylistAfterUnansweredLookup asked.coldStart asked.haveSegments lookup =
      false) :
    (conduct S).Keeps t
      (Knows t curl true fun c => ((K c ∧ Sizing S asked playlistText pending probedCount c) ∧
        SizesOf pending probedCount sizes) ∧
        Inquires t
          { asked, lookup := some lookup, playlist := some (.fetched playlistText), sizes } c)
      (call (.mergeProbed asked lookup playlistText pending probedCount sizes))
      (To fun _ => Knows t curl true K) := by
  have hfrozen := ((hK.frozen.and
    (frozen_sizing (S := S) asked playlistText pending probedCount)).and
    (lasting_given (t := t) (SizesOf pending probedCount sizes)).frozen).and
    (frozen_inquires (t := t)
      { asked, lookup := some lookup, playlist := some (.fetched playlistText), sizes })
  refine keeps_call hfrozen.stable
    (fun c _ hc => ⟨hc.1.refresh.mpr rfl, hc.2.2, hlookup, hc.2.1.2, hc.2.1.1.2.2⟩)
    fun c choice c' a _ hc _ _ hexec => ?_
  simp only [Client.exec] at hexec
  split at hexec
  · obtain ⟨rfl, -⟩ := Prod.mk.inj (Option.some.inj hexec)
    refine ⟨⟨hc.1.curl, hc.1.refresh⟩, hK _ _ hc.2.1.1.1 ?_⟩
    exact Sees.refreshed t ⟨rfl, rfl, rfl, rfl, rfl⟩ (segments_prefix_mergeProbed _)
  · obtain ⟨rfl, -⟩ := Prod.mk.inj (Option.some.inj hexec)
    exact ⟨hc.1, hc.2.1.1.1⟩

theorem keeps_mergeFetched (hK : Lasting t K)
    (hlookup : shouldSkipPlaylistAfterUnansweredLookup asked.coldStart asked.haveSegments lookup =
      false) :
    (conduct S).Keeps t
      (Knows t curl true fun c => K c ∧
        Inquires t { asked, lookup := some lookup, playlist := some (.fetched playlistText) } c)
      (mergeFetched asked lookup playlistText) (To fun _ => Knows t curl true K) := by
  let inquiry : Inquiry :=
    { asked, lookup := some lookup, playlist := some (.fetched playlistText) }
  have hbegin : (conduct S).Keeps t (Knows t curl true fun c => K c ∧ Inquires t inquiry c)
      (call (.beginProbes asked playlistText)) _ := keeps_beginProbes hK
  refine keeps_then hbegin fun found => ?_
  cases found with
  | none => exact keeps_done fun c hc => ⟨hc.1, hc.2.1.1⟩
  | some found =>
      obtain ⟨pending, probedCount⟩ := found
      have hfrozen := hK.frozen.and (frozen_sizing (S := S) asked playlistText pending probedCount)
      refine Keeps.pre (P := Knows t curl true fun c =>
        (K c ∧ Sizing S asked playlistText pending probedCount c) ∧ Inquires t inquiry c) ?_
        fun c _ hc => ⟨hc.1, ⟨hc.2.1.1, hc.2.2 _ rfl⟩, hc.2.1.2⟩
      refine keeps_then (keeps_probe hfrozen fun c i hc =>
        ⟨hK _ _ hc.1 (Sees.noted t i), hc.2.noted i⟩) fun sizes => ?_
      exact keeps_then (keeps_mergeProbed hK sizes hlookup) fun ok => keeps_done fun c hc => hc

theorem keeps_asked (hK : Lasting t K) (asked : AskedPlaylist) :
    (conduct S).Keeps t (Knows t curl true fun c => K c ∧ Inquires t { asked } c)
      (RecordingClient.ask asked) (To fun _ => Knows t curl true K) := by
  have hnoted : ∀ c i, K c → K (c.noted t i) := fun c i hc => hK _ _ hc (Sees.noted t i)
  refine keeps_then (keeps_hears (f := fun lookup i => { i with lookup := some lookup }) hK.frozen
    hnoted (fun _ => trivial) (fun c choice c' lookup hexec => ?_) fun _ => rfl) fun lookup => ?_
  · obtain ⟨rfl, hlookup⟩ := Prod.mk.inj (Option.some.inj hexec)
    rw [← Except.ok.inj hlookup]
  dsimp only
  split
  · exact keeps_done fun c hc => ⟨hc.1, hc.2.1⟩
  · next hgo =>
      have hlookup := Bool.eq_false_iff.mpr hgo
      refine keeps_then (keeps_hears
        (f := fun (fetched : PlaylistFetch × Int) i => { i with playlist := some fetched.1 })
        hK.frozen hnoted (fun _ => trivial) (fun c choice c' fetched hexec => ?_) fun _ => rfl)
        fun fetched => ?_
      · obtain ⟨rfl, hfetched⟩ := Prod.mk.inj (Option.some.inj hexec)
        rw [← Except.ok.inj hfetched]
      obtain ⟨playlist, playlistHttpStatus⟩ := fetched
      cases playlist with
      | fetched playlistText => exact keeps_mergeFetched hK hlookup
      | failed wasNotFound =>
          exact keeps_then (keeps_withoutPlaylist hK wasNotFound hlookup) fun same =>
            keeps_done fun c hc => hc

theorem keeps_refreshLocked (hK : Lasting t K) (force coldStart : Bool) :
    (conduct S).Keeps t (Knows t curl true K) (refreshLocked force coldStart)
      (To fun _ => Knows t curl true K) := by
  have hbegin : (conduct S).Keeps t (Knows t curl true K) (call .beginRefresh)
      (To fun begun => Knows t curl true fun c => K c ∧
        (begun = true → c.stream.contentGone = false)) :=
    keeps_ask trivial hK.stable (fun _ _ _ => trivial) fun c choice c' a _ _ _ _ hexec ha => by
      obtain ⟨rfl, hbegun⟩ := Prod.mk.inj (Option.some.inj hexec)
      have hboth := (Except.ok.inj hbegun).trans ha
      simp only [Bool.and_eq_true, Bool.not_eq_true'] at hboth
      exact hboth.2
  refine keeps_then hbegin fun begun => ?_
  cases begun with
  | false => exact keeps_done fun c hc => ⟨hc.1, hc.2.1⟩
  | true =>
      refine Keeps.pre (P := Knows t curl true fun c => K c ∧ c.stream.contentGone = false) ?_
        fun c _ hc => ⟨hc.1, hc.2.1, hc.2.2 rfl⟩
      refine keeps_then (keeps_keepAlive (hK.frozen.and frozen_stays)) fun _ => ?_
      refine keeps_then (keeps_beginAsk hK force coldStart) fun a => ?_
      cases a with
      | none => exact keeps_done fun c hc => ⟨hc.1, hc.2.1⟩
      | some asked =>
          cases asked with
          | none => exact keeps_done fun c hc => ⟨hc.1, hc.2.1⟩
          | some asked =>
              exact (keeps_asked hK asked).pre fun c _ hc => ⟨hc.1, hc.2.1, hc.2.2 asked rfl⟩

/-- **The refresh**: it holds the mutex only while it lasts; a call that holds the
handle does not wait for it. -/
theorem keeps_refresh (hK : Lasting t K) {force : Bool} (coldStart : Bool)
    (hforce : force = true → curl = false) :
    (conduct S).Keeps t (Knows t curl false K)
      (refreshInProgressRecordingManifest force coldStart) (To fun _ => Knows t curl false K) := by
  have hlocked : ∀ locked, (conduct S).Keeps t (Knows t curl locked K)
      (if locked then
        (refreshLocked force coldStart).bind fun result =>
          (call .unlockRefresh).bind fun _ => .done result
      else .done { ok := true })
      (To fun _ => Knows t curl false K) := by
    intro locked
    cases locked with
    | false => exact keeps_done fun c hc => hc
    | true =>
        exact keeps_then (keeps_refreshLocked hK force coldStart) fun result =>
          keeps_then (keeps_unlockRefresh hK) fun _ => keeps_done fun c hc => hc
  cases force with
  | false => exact keeps_then (keeps_tryLockRefresh hK) hlocked
  | true =>
      obtain rfl := hforce rfl
      exact keeps_then (keeps_then (keeps_lockRefresh hK) fun _ => keeps_done fun c hc => hc)
        hlocked

end Refresh

end RecordingClient

end DispatcharrPvr
