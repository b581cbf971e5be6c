import DispatcharrPvr.LiveTimeshift.Steps

/-!
# LiveTimeshift.Rules

The rules by which the calls are shown to conduct themselves: for a command that
is not about its call, for the two mutexes, and for the refresh that all of them
share.
-/

namespace DispatcharrPvr

namespace LiveClient

open Interleaving Interleaving.Program Interleaving.Discipline LiveStream

/-- What a run is about: the plugin's files, the server's host, how long a short
request may take, and the calls that Kodi makes. -/
structure Setting where
  content : Nat → String → ByteString
  host : ByteString
  shortRequestTimeoutMs : Int
  calls : CallId → Call

/-- How the calls conduct themselves. -/
def conduct (S : Setting) : Discipline (machine S.host S.shortRequestTimeoutMs S.calls) where
  inv := Inv S.content
  rely := Rely
  allowed _ := supposed S.content
  allowedEnv _ _ := True
  promise := Promise S.content
  rely_refl := Rely.refl
  rely_trans := Rely.trans

variable {S : Setting} {t : CallId} {α β : Type}

/-- No command raises a failure. -/
theorem exec_ok {host : ByteString} {c c' : Client} {cmd : Cmd} {choice : Choice}
    {r : Except Failure cmd.Answer} (h : c.exec host t cmd choice = some (c', r)) :
    ∃ a, r = .ok a := by
  cases cmd
  case lockCurl | lockRefresh | enter =>
    simp only [Client.exec] at h
    split at h
    · contradiction
    · exact ⟨_, (Prod.mk.inj (Option.some.inj h)).2.symm⟩
  case tryLockRefresh | mergeManifest | fatalNotice | beginSeek | giveUp =>
    simp only [Client.exec] at h
    split at h <;> exact ⟨_, (Prod.mk.inj (Option.some.inj h)).2.symm⟩
  case beginFetch =>
    simp only [Client.exec] at h
    split at h
    · split at h <;> exact ⟨_, (Prod.mk.inj (Option.some.inj h)).2.symm⟩
    · exact ⟨_, (Prod.mk.inj (Option.some.inj h)).2.symm⟩
  case endFetch =>
    simp only [Client.exec] at h
    split at h <;> exact ⟨_, (Prod.mk.inj (Option.some.inj h)).2.symm⟩
  all_goals exact ⟨_, (Prod.mk.inj (Option.some.inj h)).2.symm⟩

/-! ## what lasts -/

/-- What stays whichever mutexes the call holds. -/
def Lasting (t : CallId) (K : Client → Prop) : Prop := ∀ c c', K c → Sees t c c' → K c'

/-- The mutexes that a call holds, and what it knows. -/
def Knows (t : CallId) (curl refresh : Bool) (K : Client → Prop) (c : Client) : Prop :=
  Holds t curl refresh c ∧ K c

/-- A call that holds neither mutex. -/
abbrev Free (t : CallId) (K : Client → Prop) : Client → Prop := Knows t false false K

theorem Lasting.and {K K' : Client → Prop} (h : Lasting t K) (h' : Lasting t K') :
    Lasting t fun c => K c ∧ K' c :=
  fun c c' hK hsees => ⟨h c c' hK.1 hsees, h' c c' hK.2 hsees⟩

theorem Lasting.stable {curl refresh : Bool} {K : Client → Prop} (h : Lasting t K) :
    (conduct S).Stable t (Knows t curl refresh K) := by
  rintro c c' ⟨hholds, hK⟩ hrely
  have hrely' : Rely t c c' := hrely
  exact ⟨⟨hrely'.curl.trans hholds.curl, hrely'.refresh.trans hholds.refresh⟩,
    h c c' hK hrely'.toSees⟩

theorem lasting_clock (clock : Int) : Lasting t fun c => clock ≤ c.clock :=
  fun _ _ h hsees => Int.le_trans h hsees.clock

theorem lasting_session (session : Nat) : Lasting t fun c => session ≤ c.session :=
  fun _ _ h hsees => Nat.le_trans h hsees.session

theorem lasting_switching (how : Option Bool) : Lasting t (Switching t how) :=
  fun _ _ h hsees isOpening => (hsees.switching isOpening).trans (h isOpening)

theorem lasting_given (A : Prop) : Lasting t fun _ => A := fun _ _ h _ => h

/-- Since a session was the present one, its sign of death is there or it is over. -/
def Shown (session : Nat) (fatal : Bool) (c : Client) : Prop :=
  session ≤ c.session ∧ (fatal = true → c.session = session → .fatalManifest ∈ c.record.signs)

theorem lasting_shown (session : Nat) (fatal : Bool) : Lasting t (Shown session fatal) := by
  rintro c c' ⟨hsince, hshown⟩ hsees
  have hlater := hsees.session
  refine ⟨by omega, fun hfatal hsession => ?_⟩
  exact (hsees.signs (by omega)).subset (hshown hfatal (by omega))

/-! ## commands -/

/-- A step of a call is fair. -/
theorem sound (S : Setting) : (conduct S).Sound where
  fair hinv hpromise _ hexec :=
    ⟨Inv.step hinv (exec_effect hpromise hexec), fun _ hne =>
      Rely.step (exec_effect hpromise hexec) hne⟩
  ok := exec_ok

/-- One command, as promised. -/
theorem keeps_call {P : Client → Prop} {cmd : Cmd} {Q : cmd.Answer → Client → Prop}
    (hP : (conduct S).Stable t P) (hpromise : ∀ c, Inv S.content c → P c → Promise S.content t c cmd)
    (hQ : ∀ c choice c' a, Inv S.content c → P c → supposed S.content c cmd choice →
      Inv S.content c' → c.exec S.host t cmd choice = some (c', .ok a) → Q a c') :
    (conduct S).Keeps t P (call cmd) (To Q) :=
  (sound S).keeps hP hpromise hQ

/-- A command that says nothing of the call that runs it. -/
def Quiet : Cmd → Prop
  | .lockCurl | .unlockCurl | .lockRefresh | .tryLockRefresh | .unlockRefresh | .enter _ | .leave
  | .resetClosed | .reset | .setOpen _ | .place | .endFetch .. | .answer .. => False
  | _ => True

/-- It might as well be another call's. -/
theorem Quiet.rely {host : ByteString} {content : Nat → String → ByteString} {c c' : Client}
    {cmd : Cmd} {choice : Choice} {r : Except Failure cmd.Answer} (hquiet : Quiet cmd)
    (hpromise : Promise content t c cmd) (h : c.exec host t cmd choice = some (c', r)) :
    Rely t c c' := by
  have hpromise' : Promise content (t + 1) c cmd := by
    cases cmd <;> first | exact hpromise | exact hquiet.elim
  have hexec : c.exec host (t + 1) cmd choice = some (c', r) := by
    rw [← h]
    cases cmd <;> first | rfl | exact hquiet.elim
  exact Rely.step (exec_effect hpromise' hexec) (Nat.ne_of_lt (Nat.lt_succ_self t))

/-- A quiet command leaves what its call knows. -/
theorem keeps_ask {curl refresh : Bool} {K : Client → Prop} {cmd : Cmd}
    {A : cmd.Answer → Client → Prop} (hquiet : Quiet cmd) (hK : Lasting t K)
    (hpromise : ∀ c, Inv S.content c → K c → Promise S.content t c cmd)
    (hA : ∀ c choice c' a, Inv S.content c → K c → supposed S.content c cmd choice →
      Inv S.content c' → c.exec S.host t cmd choice = some (c', .ok a) → A a c') :
    (conduct S).Keeps t (Knows t curl refresh K) (call cmd)
      (To fun a => Knows t curl refresh fun c => K c ∧ A a c) := by
  refine ((sound S).asks hK.stable (fun c hinv hc => hpromise c hinv hc.2)
    (fun c _ c' _ hinv hc hexec => hquiet.rely (hpromise c hinv hc.2) hexec)
    fun c choice c' a hinv hc => hA c choice c' a hinv hc.2).post ?_
  exact To.mono fun _ _ h => ⟨h.1.1, h.1.2, h.2⟩

/-- The same, of a command that promises nothing and whose answer is of no matter. -/
theorem keeps_idly {curl refresh : Bool} {K : Client → Prop} {cmd : Cmd} (hquiet : Quiet cmd)
    (hK : Lasting t K) (hpromise : ∀ c, Promise S.content t c cmd) :
    (conduct S).Keeps t (Knows t curl refresh K) (call cmd) (To fun _ => Knows t curl refresh K) :=
  (keeps_ask (A := fun _ _ => True) hquiet hK (fun c _ _ => hpromise c)
    fun _ _ _ _ _ _ _ _ _ => trivial).post (To.mono fun _ _ h => ⟨h.1, h.2.1⟩)

/-! ## the two mutexes -/

section Mutexes

variable {K : Client → Prop}

theorem keeps_lockCurl (hK : Lasting t K) :
    (conduct S).Keeps t (Free t K) (call .lockCurl) (To fun _ => Knows t true false K) := by
  refine keeps_call hK.stable (fun c _ hc => ?_) fun c choice c' a _ hc _ _ hexec => ?_
  · simp [Promise, hc.1.curl, hc.1.refresh]
  · simp only [Client.exec] at hexec
    split at hexec
    · contradiction
    · obtain ⟨rfl, -⟩ := Prod.mk.inj (Option.some.inj hexec)
      exact ⟨⟨by simp, hc.1.refresh⟩, hK _ _ hc.2 { Sees.refl t c with }⟩

theorem keeps_unlockCurl (hK : Lasting t K) :
    (conduct S).Keeps t (Knows t true false K) (call .unlockCurl) (To fun _ => Free t K) := by
  refine keeps_call hK.stable (fun c _ hc => hc.1.curl.mpr rfl) fun c choice c' a _ hc _ _ hexec => ?_
  obtain ⟨rfl, -⟩ := Prod.mk.inj (Option.some.inj hexec)
  exact ⟨⟨by simp, hc.1.refresh⟩, hK _ _ hc.2 { Sees.refl t c with }⟩

theorem keeps_lockRefresh (hK : Lasting t K) :
    (conduct S).Keeps t (Free t K) (call .lockRefresh) (To fun _ => Knows t false true K) := by
  refine keeps_call hK.stable (fun c _ hc => ?_) fun c choice c' a _ hc _ _ hexec => ?_
  · simp [Promise, hc.1.curl, hc.1.refresh]
  · simp only [Client.exec] at hexec
    split at hexec
    · contradiction
    · obtain ⟨rfl, -⟩ := Prod.mk.inj (Option.some.inj hexec)
      exact ⟨⟨hc.1.curl, by simp⟩, hK _ _ hc.2 { Sees.refl t c with }⟩

theorem keeps_tryLockRefresh (hK : Lasting t K) :
    (conduct S).Keeps t (Free t K) (call .tryLockRefresh)
      (To fun locked => Knows t false locked K) := by
  refine keeps_call hK.stable (fun c _ hc => ?_) fun c choice c' a _ hc _ _ hexec => ?_
  · simp [Promise, hc.1.refresh]
  · simp only [Client.exec] at hexec
    split at hexec
    · obtain ⟨rfl, ha⟩ := Prod.mk.inj (Option.some.inj hexec)
      obtain rfl := Except.ok.inj ha
      exact hc
    · obtain ⟨rfl, ha⟩ := Prod.mk.inj (Option.some.inj hexec)
      obtain rfl := Except.ok.inj ha
      exact ⟨⟨hc.1.curl, by simp⟩, hK _ _ hc.2 { Sees.refl t c with }⟩

theorem keeps_unlockRefresh (hK : Lasting t K) :
    (conduct S).Keeps t (Knows t false true K) (call .unlockRefresh) (To fun _ => Free t K) := by
  refine keeps_call hK.stable (fun c _ hc => hc.1.refresh.mpr rfl)
    fun c choice c' a _ hc _ _ hexec => ?_
  obtain ⟨rfl, -⟩ := Prod.mk.inj (Option.some.inj hexec)
  exact ⟨⟨hc.1.curl, by simp⟩, hK _ _ hc.2 { Sees.refl t c with }⟩

end Mutexes

/-! ## the refresh -/

section Refresh

variable {K : Client → Prop} (session : Nat)

theorem keeps_beginRefresh (hK : Lasting t K) (force : Bool) :
    (conduct S).Keeps t (Knows t false true fun c => K c ∧ session ≤ c.session)
      (call (.beginRefresh force))
      (To fun a => Knows t false true fun c => (K c ∧ session ≤ c.session) ∧
        ∀ asked, a = some (some asked) → session ≤ asked.session ∧ asked.session ≤ c.session) := by
  refine keeps_ask trivial (hK.and (lasting_session session)) (fun _ _ _ => trivial)
    fun c choice c' a _ hc _ _ hexec asked ha => ?_
  obtain ⟨rfl, hasked⟩ := Prod.mk.inj (Option.some.inj hexec)
  have hsession : asked.session = c.session :=
    beginRefresh_session ((Except.ok.inj hasked).trans ha)
  exact ⟨hsession ▸ hc.2, Nat.le_of_eq hsession⟩

/-- What the answer says of its session, when it is fatal, is recorded there. -/
theorem keeps_requestManifest (hK : Lasting t K) (asked : Asked) :
    (conduct S).Keeps t (Knows t false true fun c => K c ∧ session ≤ asked.session ∧
        asked.session ≤ c.session) (call (.requestManifest asked))
      (To fun a => Knows t false true fun c => K c ∧ Shown session a.1.fatal c) := by
  have hbetween : Lasting t fun c => K c ∧ session ≤ asked.session ∧ asked.session ≤ c.session :=
    hK.and fun c c' h hsees => ⟨h.1, Nat.le_trans h.2 hsees.session⟩
  have hask : (conduct S).Keeps t (Knows t false true _) (call (.requestManifest asked))
      (To fun a => Knows t false true fun c => _ ∧ Shown session a.1.fatal c) :=
    keeps_ask trivial hbetween (fun _ _ _ => trivial) fun c choice c' a _ hc _ _ hexec => by
      obtain ⟨rfl, ha⟩ := Prod.mk.inj (Option.some.inj hexec)
      obtain rfl := Except.ok.inj ha
      obtain ⟨hfrom, hto⟩ := hc.2
      split
      · exact ⟨Nat.le_trans hfrom hto, fun _ _ => List.mem_cons_self⟩
      · next hother =>
          refine ⟨Nat.le_trans hfrom hto, fun hfatal hsame => ?_⟩
          have hsame' : asked.session = c.session := by omega
          simp [hfatal, hsame'] at hother
  exact hask.post (To.mono fun _ _ h => ⟨h.1, h.2.1.1, h.2.2⟩)

theorem keeps_refreshLocked (hK : Lasting t K) (force : Bool) :
    (conduct S).Keeps t (Knows t false true fun c => K c ∧ session ≤ c.session)
      (refreshLocked force)
      (To fun result => Knows t false true fun c => K c ∧ Shown session result.fatal c) := by
  refine keeps_then (keeps_beginRefresh session hK force) fun a => ?_
  have hnot : ∀ c, (K c ∧ session ≤ c.session) → K c ∧ Shown session false c :=
    fun c hc => ⟨hc.1, hc.2, fun h => by cases h⟩
  cases a with
  | none => exact keeps_done fun c hc => ⟨hc.1, hnot c hc.2.1⟩
  | some asked =>
      cases asked with
      | none => exact keeps_done fun c hc => ⟨hc.1, hnot c hc.2.1⟩
      | some asked =>
          have hask : (conduct S).Keeps t (Knows t false true fun c => (K c ∧ session ≤ c.session) ∧
                ∀ a, some (some asked) = some (some a) → session ≤ a.session ∧ a.session ≤ c.session)
              (call (.requestManifest asked))
              (To fun a => Knows t false true fun c => K c ∧ Shown session a.1.fatal c) :=
            (keeps_requestManifest session hK asked).pre fun c _ hc =>
              ⟨hc.1, hc.2.1.1, hc.2.2 asked rfl⟩
          refine keeps_then hask fun answer => ?_
          obtain ⟨result, manifest⟩ := answer
          cases manifest with
          | none => exact keeps_done fun c hc => hc
          | some manifest =>
              exact keeps_then (keeps_idly trivial (hK.and (lasting_shown session result.fatal))
                fun _ => trivial) fun answered => keeps_done fun c hc => hc

/-- **The refresh**: it holds the mutex only while it lasts. -/
theorem keeps_refresh (hK : Lasting t K) (force : Bool) :
    (conduct S).Keeps t (Free t fun c => K c ∧ session ≤ c.session) (refreshLiveManifest force)
      (To fun result => Free t fun c => K c ∧ Shown session result.fatal c) := by
  have hsince := hK.and (lasting_session (t := t) session)
  have hlocked : ∀ locked, (conduct S).Keeps t
      (Knows t false locked fun c => K c ∧ session ≤ c.session)
      (if locked then
        (refreshLocked force).bind fun result => (call .unlockRefresh).bind fun _ => .done result
      else .done { answered := true })
      (To fun result => Free t fun c => K c ∧ Shown session result.fatal c) := by
    intro locked
    cases locked with
    | true =>
        refine keeps_then (keeps_refreshLocked session hK force) fun result => ?_
        exact keeps_then (keeps_unlockRefresh (hK.and (lasting_shown session result.fatal))) fun _ =>
          keeps_done fun c hc => hc
    | false => exact keeps_done fun c hc => ⟨hc.1, hc.2.1, hc.2.2, fun h => by cases h⟩
  cases force with
  | true =>
      have hlock : (conduct S).Keeps t (Free t _) ((call .lockRefresh).bind fun _ => .done true)
          (To fun locked => Knows t false locked _) :=
        keeps_then (keeps_lockRefresh hsince) fun _ => keeps_done fun c hc => hc
      exact keeps_then hlock hlocked
  | false => exact keeps_then (keeps_tryLockRefresh hsince) hlocked

end Refresh

end LiveClient

end DispatcharrPvr
