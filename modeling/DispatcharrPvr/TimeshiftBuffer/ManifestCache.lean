import DispatcharrPvr.Lib.Runs
import DispatcharrPvr.TimeshiftBuffer.LiveManifest

/-!
# TimeshiftBuffer.ManifestCache

The manifest cache of one worker, over any run of calls for any channels among
which each instance's `ffmpeg` writes its files and its playlist, instances
come and go, and entries are dropped.

An instance gives no number to two files, and a file is settled once a later one
is listed behind it.  A cached entry keeps the size that was measured when it was
the newest, and the entries it was made from, so a call answers what it would
answer with an empty cache as long as that was the settled size and the entries
are those of the playlist in place: `Worker.liveManifest_transparent`.  A file
that grows behind its last measurement is answered with the size it had then for
as long as it is listed.
-/

namespace DispatcharrPvr

namespace TimeshiftBuffer

open Runs

/-! ## what an instance does to its directory -/

/-- A channel's directory with the instance whose `ffmpeg` writes it: the
numbers it has given its files, and the files it has listed before a later one. -/
structure InstanceDir extends ChannelDir where
  token : Text
  numbered : List (Int × Text) := []
  settled : List Text := []

/-- What `stat` says of a playlist. -/
def Playlist.stamp (playlist : Playlist) : Int × Nat := (playlist.mtimeNs, playlist.size)

/-- The files of a playlist numbered as `#EXT-X-MEDIA-SEQUENCE` has it: from its
number on, in order. -/
def numbering (py : Python) (lines : List Text) : List (Int × Text) :=
  (parseLivePlaylistLines py lines).2.zipIdx.map fun entry =>
    ((parseLivePlaylistLines py lines).1 + entry.2, entry.1.segName)

/-- No number is given to two files. -/
def OneFileEach (numbered : List (Int × Text)) : Prop :=
  ∀ a ∈ numbered, ∀ b ∈ numbered, a.1 = b.1 → a.2 = b.2

/-- No file is given two numbers. -/
def OneNumberEach (numbered : List (Int × Text)) : Prop :=
  ∀ a ∈ numbered, ∀ b ∈ numbered, a.2 = b.2 → a.1 = b.1

instance (numbered : List (Int × Text)) : Decidable (OneFileEach numbered) :=
  inferInstanceAs (Decidable (∀ a ∈ numbered, ∀ b ∈ numbered, a.1 = b.1 → a.2 = b.2))

instance (numbered : List (Int × Text)) : Decidable (OneNumberEach numbered) :=
  inferInstanceAs (Decidable (∀ a ∈ numbered, ∀ b ∈ numbered, a.2 = b.2 → a.1 = b.1))

/-- The files a playlist lists. -/
def listedBy (py : Python) (lines : List Text) : List Text :=
  (parseLivePlaylistLines py lines).2.map (·.segName)

/-- The files listed with a later one behind them. -/
def settledBy (py : Python) (lines : List Text) : List Text :=
  (parseLivePlaylistLines py lines).2.dropLast.map (·.segName)

namespace InstanceDir

/-- `ffmpeg` puts a new playlist in place: `stat` tells it from the one before, and
no number is given to another file. -/
def rewrite (py : Python) (d : InstanceDir) (playlist : Playlist) : Option InstanceDir :=
  let numbered := d.numbered ++ numbering py playlist.lines
  if (∀ previous ∈ d.playlist, playlist.stamp ≠ previous.stamp) ∧ OneFileEach numbered then
    some
      { d with
        playlist := some playlist
        numbered
        settled := d.settled ++ settledBy py playlist.lines }
  else none

/-- A file comes up, or grows, until it is settled. -/
def write (d : InstanceDir) (name : Text) (size : Nat) : Option InstanceDir :=
  if name ∉ d.settled then
    some { d with files := fun n => if n = name then some size else d.files n }
  else none

/-- A file that the playlist does not list is deleted. -/
def delete (py : Python) (d : InstanceDir) (name : Text) : Option InstanceDir :=
  if ∀ playlist ∈ d.playlist, name ∉ listedBy py playlist.lines then
    some { d with files := fun n => if n = name then none else d.files n }
  else none

end InstanceDir

/-! ## the worker -/

/-- One answer, the instance whose directory the call found, and what the same
call would have answered with an empty cache. -/
structure ManifestAnswer where
  token : Option Text
  given : Except ManifestError Manifest
  cold : Except ManifestError Manifest

/-- A worker's cache, the directories by storage path and channel, the access
tokens given out, and the answers so far. -/
structure Worker where
  dirs : Text × Text → Option InstanceDir := fun _ => none
  tokens : List Text := []
  cache : ManifestCache := []
  answers : List ManifestAnswer := []

/-- What happens on the disk and in the worker. -/
inductive ManifestEvent where
  /-- A buffer is started, the directory cleared for it. -/
  | newInstance (path : Text × Text) (token : Text)
  | removeDir (path : Text × Text)
  | rewrite (path : Text × Text) (playlist : Playlist)
  | write (path : Text × Text) (name : Text) (size : Nat)
  | delete (path : Text × Text) (name : Text)
  | log (path : Text × Text) (lines : List Text)
  /-- The channel's state is deleted, or its entry evicted. -/
  | forget (channelUuid : Text)
  | call (state : ManifestState) (running : Bool)

namespace Worker

variable (py : Python)

/-- One directory replaced. -/
def setDir (s : Worker) (path : Text × Text) (d : Option InstanceDir) : Worker :=
  { s with dirs := fun p => if p = path then d else s.dirs p }

/-- The directory a state's channel has. -/
def dirOf (s : Worker) (state : ManifestState) : Option InstanceDir :=
  s.dirs (state.storagePath, state.channelUuid)

/-- A call answers. -/
def call (s : Worker) (state : ManifestState) (running : Bool) : Worker :=
  let dir := (s.dirOf state).map (·.toChannelDir)
  let (given, cache) := getLiveManifest py state running dir s.cache
  { s with
    cache
    answers :=
      { token := (s.dirOf state).map (·.token)
        given
        cold := (getLiveManifest py state running dir []).1 } :: s.answers }

/-- One event; a token is given out once, and is not empty. -/
def step (s : Worker) : ManifestEvent → Option Worker
  | .newInstance path token =>
      if token ≠ [] ∧ token ∉ s.tokens then
        some ({ s with tokens := token :: s.tokens }.setDir path (some { token }))
      else none
  | .removeDir path => some (s.setDir path none)
  | .rewrite path playlist =>
      (s.dirs path).bind fun d => (d.rewrite py playlist).map fun d' => s.setDir path (some d')
  | .write path name size =>
      (s.dirs path).bind fun d => (d.write name size).map fun d' => s.setDir path (some d')
  | .delete path name =>
      (s.dirs path).bind fun d => (d.delete py name).map fun d' => s.setDir path (some d')
  | .log path lines =>
      (s.dirs path).map fun d => s.setDir path (some { d with ffmpegLog := lines })
  | .forget channelUuid => some { s with cache := forgetCachedManifest s.cache channelUuid }
  | .call state running => some (s.call py state running)

/-- What the cache has for an instance's file is its size on the disk. -/
def CachedSizeCurrent (s : Worker) (path : Text × Text) (d : InstanceDir) (name : Text) : Prop :=
  ∀ cached ∈ s.cache, cached.1 = path.2 → cached.2.instanceToken = some d.token →
    ∀ reused ∈ cached.2.bySequence, reused.segName = name → d.files name = some reused.size

/-- The cache has nothing of an instance's that `stat` could take for this playlist. -/
def StampUncached (s : Worker) (path : Text × Text) (d : InstanceDir) (playlist : Playlist) :
    Prop :=
  ∀ cached ∈ s.cache, cached.1 = path.2 → cached.2.instanceToken = some d.token →
    (cached.2.playlistMtimeNs, cached.2.playlistSize) ≠ playlist.stamp

/-- A playlist that lists a later file finds the sizes the cache has for those
before it current; it is not taken for the one the cache was made from, and gives no
file a second number.  A listed file that was not there comes up only where the cache
was not made from the playlist.  And a call finds the directory of its own state's
instance. -/
def CacheKept (s : Worker) : ManifestEvent → Prop
  | .rewrite path playlist =>
      ∀ d ∈ s.dirs path, (∀ name ∈ settledBy py playlist.lines, s.CachedSizeCurrent path d name) ∧
        s.StampUncached path d playlist ∧ OneNumberEach (d.numbered ++ numbering py playlist.lines)
  | .write path name _ =>
      ∀ d ∈ s.dirs path, d.files name = none → ∀ playlist ∈ d.playlist,
        name ∈ listedBy py playlist.lines → s.StampUncached path d playlist
  | .call state _ =>
      state.accessToken.any (· ≠ []) → ∀ d ∈ s.dirOf state, state.accessToken = some d.token
  | _ => True

instance (s : Worker) (path : Text × Text) (d : InstanceDir) (name : Text) :
    Decidable (s.CachedSizeCurrent path d name) :=
  inferInstanceAs (Decidable (∀ cached ∈ s.cache, cached.1 = path.2 →
    cached.2.instanceToken = some d.token → ∀ reused ∈ cached.2.bySequence,
      reused.segName = name → d.files name = some reused.size))

instance (s : Worker) (path : Text × Text) (d : InstanceDir) (playlist : Playlist) :
    Decidable (s.StampUncached path d playlist) :=
  inferInstanceAs (Decidable (∀ cached ∈ s.cache, cached.1 = path.2 →
    cached.2.instanceToken = some d.token →
      (cached.2.playlistMtimeNs, cached.2.playlistSize) ≠ playlist.stamp))

instance (s : Worker) : (e : ManifestEvent) → Decidable (s.CacheKept py e)
  | .rewrite path playlist =>
      inferInstanceAs (Decidable (∀ d ∈ s.dirs path,
        (∀ name ∈ settledBy py playlist.lines, s.CachedSizeCurrent path d name) ∧
          s.StampUncached path d playlist ∧
            OneNumberEach (d.numbered ++ numbering py playlist.lines)))
  | .write path name _ =>
      inferInstanceAs (Decidable (∀ d ∈ s.dirs path, d.files name = none →
        ∀ playlist ∈ d.playlist, name ∈ listedBy py playlist.lines →
          s.StampUncached path d playlist))
  | .call state _ =>
      inferInstanceAs (Decidable (state.accessToken.any (· ≠ []) → ∀ d ∈ s.dirOf state,
        state.accessToken = some d.token))
  | .newInstance .. | .removeDir .. | .delete .. | .log .. | .forget .. => .isTrue trivial

end Worker

/-! ## what holds of a directory -/

section Directory

variable {py : Python} {d d' : InstanceDir} {playlist : Playlist} {name : Text} {size : Nat}

/-- A listed file is numbered as its entry says. -/
theorem mem_numbering {lines : List Text} {seg : ListedSegment}
    (h : seg ∈ (parseLivePlaylistLines py lines).2) :
    (seg.sequence, seg.segName) ∈ numbering py lines := by
  obtain ⟨k, hk⟩ := List.mem_iff_getElem?.mp h
  rw [parseLivePlaylistLines_sequence py lines hk]
  exact List.mem_map.mpr ⟨(seg, k), List.mem_zipIdx_iff_getElem?.mpr hk, rfl⟩

namespace InstanceDir

/-- Files and numbers go together, the playlist's files under their numbers, the
settled ones before the newest. -/
structure Inv (py : Python) (d : InstanceDir) : Prop where
  oneFile : OneFileEach d.numbered
  oneNumber : OneNumberEach d.numbered
  listed : ∀ playlist, d.playlist = some playlist →
    ∀ seg ∈ (parseLivePlaylistLines py playlist.lines).2,
      (seg.sequence, seg.segName) ∈ d.numbered
  settled : ∀ playlist, d.playlist = some playlist → ∀ name ∈ settledBy py playlist.lines,
    name ∈ d.settled

theorem inv_new (py : Python) (token : Text) : Inv py { token } where
  oneFile := by simp [OneFileEach]
  oneNumber := by simp [OneNumberEach]
  listed := by simp
  settled := by simp

theorem rewrite_eq_some (h : d.rewrite py playlist = some d') :
    OneFileEach (d.numbered ++ numbering py playlist.lines) ∧
      d' =
        { d with
          playlist := some playlist
          numbered := d.numbered ++ numbering py playlist.lines
          settled := d.settled ++ settledBy py playlist.lines } := by
  simp only [rewrite] at h
  split at h
  · next hok => exact ⟨hok.2, (Option.some.inj h).symm⟩
  · contradiction

theorem write_eq_some (h : d.write name size = some d') :
    name ∉ d.settled ∧
      d' = { d with files := fun n => if n = name then some size else d.files n } := by
  simp only [write] at h
  split at h
  · next hok => exact ⟨hok, (Option.some.inj h).symm⟩
  · contradiction

theorem delete_eq_some (h : d.delete py name = some d') :
    (∀ playlist ∈ d.playlist, name ∉ listedBy py playlist.lines) ∧
      d' = { d with files := fun n => if n = name then none else d.files n } := by
  simp only [delete] at h
  split at h
  · next hok => exact ⟨hok, (Option.some.inj h).symm⟩
  · contradiction

theorem inv_rewrite (hd' : d.rewrite py playlist = some d')
    (hnumber : OneNumberEach (d.numbered ++ numbering py playlist.lines)) : d'.Inv py := by
  obtain ⟨hfile, rfl⟩ := rewrite_eq_some hd'
  constructor
  · exact hfile
  · exact hnumber
  · intro p hp seg hseg
    obtain rfl := Option.some.inj hp
    exact List.mem_append_right _ (mem_numbering hseg)
  · intro p hp name hname
    obtain rfl := Option.some.inj hp
    exact List.mem_append_right _ hname

/-- What becomes of the files is not what the numbers are about. -/
theorem Inv.files (h : d.Inv py) (files : Files) : Inv py { d with files } :=
  ⟨h.oneFile, h.oneNumber, h.listed, h.settled⟩

end InstanceDir

/-! ## what holds of a cached entry -/

/-- An entry made from a directory: it has the settled files' sizes, and where `stat`
takes the playlist in place for its own, it has the files of that which are there. -/
structure CachedManifest.Sound (py : Python) (cached : CachedManifest) (d : InstanceDir) :
    Prop where
  settled : ∀ playlist, d.playlist = some playlist → ∀ name ∈ settledBy py playlist.lines,
    ∀ seg ∈ cached.bySequence, seg.segName = name → d.files name = some seg.size
  current : ∀ playlist, d.playlist = some playlist →
    (cached.playlistMtimeNs, cached.playlistSize) = playlist.stamp →
      cached.mediaSequence = (parseLivePlaylistLines py playlist.lines).1 ∧
        cached.bySequence.map SizedSegment.listed =
          present d.files (parseLivePlaylistLines py playlist.lines).2

namespace CachedManifest.Sound

variable {cached : CachedManifest}

theorem rewrite (hd' : d.rewrite py playlist = some d')
    (hcurrent : ∀ name ∈ settledBy py playlist.lines, ∀ reused ∈ cached.bySequence,
      reused.segName = name → d.files name = some reused.size)
    (hstamp : (cached.playlistMtimeNs, cached.playlistSize) ≠ playlist.stamp) :
    cached.Sound py d' := by
  obtain ⟨-, rfl⟩ := InstanceDir.rewrite_eq_some hd'
  constructor
  · intro p hp name hname
    obtain rfl := Option.some.inj hp
    exact hcurrent name hname
  · intro p hp hsame
    obtain rfl := Option.some.inj hp
    exact absurd hsame hstamp

/-- Files other than the settled ones change, and none that is listed comes up or goes. -/
theorem files (h : cached.Sound py d) {files : Files}
    (hsettled : ∀ playlist, d.playlist = some playlist → ∀ name ∈ settledBy py playlist.lines,
      files name = d.files name)
    (hlisted : ∀ playlist, d.playlist = some playlist →
      (cached.playlistMtimeNs, cached.playlistSize) = playlist.stamp →
        ∀ name ∈ listedBy py playlist.lines, (files name).isSome = (d.files name).isSome) :
    cached.Sound py { d with files } where
  settled p hp name hname seg hseg heq :=
    (hsettled p hp name hname).trans (h.settled p hp name hname seg hseg heq)
  current p hp hstamp := by
    obtain ⟨hsequence, hentries⟩ := h.current p hp hstamp
    refine ⟨hsequence, hentries.trans (List.filter_congr fun seg hseg => ?_)⟩
    exact (hlisted p hp hstamp seg.segName (List.mem_map.mpr ⟨seg, hseg, rfl⟩)).symm

theorem write (h : cached.Sound py d) (hd : d.Inv py) (hd' : d.write name size = some d')
    (hup : d.files name = none → ∀ playlist ∈ d.playlist, name ∈ listedBy py playlist.lines →
      (cached.playlistMtimeNs, cached.playlistSize) ≠ playlist.stamp) :
    cached.Sound py d' := by
  obtain ⟨hopen, rfl⟩ := InstanceDir.write_eq_some hd'
  refine h.files (fun p hp n hn => ?_) fun p hp hstamp n hn => ?_
  · have hne : n ≠ name := fun heq => hopen (heq ▸ hd.settled p hp n hn)
    exact if_neg hne
  · by_cases heq : n = name
    · subst heq
      cases hfile : d.files n with
      | none => exact absurd hstamp (hup hfile p hp hn)
      | some old => simp
    · rw [if_neg heq]

theorem delete (h : cached.Sound py d) (hd' : d.delete py name = some d') :
    cached.Sound py d' := by
  obtain ⟨hunlisted, rfl⟩ := InstanceDir.delete_eq_some hd'
  have hne : ∀ p, d.playlist = some p → ∀ n ∈ listedBy py p.lines, n ≠ name :=
    fun p hp n hn heq => hunlisted p hp (heq ▸ hn)
  refine h.files (fun p hp n hn => if_neg (hne p hp n ?_)) fun p hp _ n hn => ?_
  · exact List.map_subset _ (List.dropLast_sublist _).subset hn
  · rw [if_neg (hne p hp n hn)]

end CachedManifest.Sound

end Directory

/-! ## what a call answers -/

section Answer

variable {py : Python} {d : InstanceDir} {playlist : Playlist} {cache : ManifestCache}
  {state : ManifestState} {cached : CachedManifest} {running : Bool}

/-- A cache is a dictionary. -/
def Keyed (cache : ManifestCache) : Prop := ∀ a ∈ cache, ∀ b ∈ cache, a.1 = b.1 → a = b

theorem trustedManifest_eq_some {channelUuid : Text} {bufferToken : Option Text}
    (h : trustedManifest cache channelUuid bufferToken = some cached) :
    (channelUuid, cached) ∈ cache ∧ bufferToken.any (· ≠ []) ∧
      cached.instanceToken = bufferToken := by
  obtain ⟨hfind, htrusted⟩ := Option.filter_eq_some_iff.mp h
  obtain ⟨⟨channel, entry⟩, hentry, rfl⟩ := Option.map_eq_some_iff.mp hfind
  have hkey : channel = channelUuid := by simpa using List.find?_some hentry
  rw [Bool.and_eq_true, beq_iff_eq] at htrusted
  exact ⟨hkey ▸ List.mem_of_find?_eq_some hentry, htrusted⟩

/-- A playlist's settled entries are there with the sizes a sound entry has. -/
theorem CachedManifest.Sound.size_eq (h : cached.Sound py d) (hp : d.playlist = some playlist)
    {seg : ListedSegment} (hseg : seg ∈ (parseLivePlaylistLines py playlist.lines).2.dropLast)
    {reused : SizedSegment} (hreused : reused ∈ cached.bySequence)
    (hname : reused.segName = seg.segName) : d.files seg.segName = some reused.size :=
  h.settled playlist hp _ (List.mem_map.mpr ⟨seg, hseg, rfl⟩) reused hreused hname

/-- What stands before the last that is kept does not stand last. -/
theorem mem_dropLast_of_filter {α : Type} {l before : List α} {x last : α} {p : α → Bool}
    (h : l.filter p = before ++ [last]) (hx : x ∈ before) : x ∈ l.dropLast := by
  rcases List.eq_nil_or_concat l with rfl | ⟨rest, a, rfl⟩
  · simp at h
  · rw [List.concat_eq_append, List.filter_append] at h
    rw [List.concat_eq_append, List.dropLast_concat]
    cases ha : p a with
    | true =>
        rw [List.filter_singleton, ha, cond_true] at h
        exact List.mem_of_mem_filter ((List.append_inj_left' h rfl).symm ▸ hx)
    | false =>
        rw [List.filter_singleton, ha, cond_false, List.append_nil] at h
        exact List.mem_of_mem_filter (h ▸ List.mem_append_left _ hx)

/-- Measuring the newest again is measuring all of them again. -/
theorem remeasureNewest_eq (h : cached.Sound py d) (hp : d.playlist = some playlist)
    (hstamp : (cached.playlistMtimeNs, cached.playlistSize) = playlist.stamp) :
    remeasureNewest d.files cached.bySequence =
      (measuredSegments d.files (parseLivePlaylistLines py playlist.lines).2,
        measuredSegments d.files (parseLivePlaylistLines py playlist.lines).2) := by
  obtain ⟨-, hlisted⟩ := h.current playlist hp hstamp
  rw [← measuredSegments_present, ← hlisted]
  cases hlast : cached.bySequence.getLast? with
  | none =>
      rw [List.getLast?_eq_none_iff] at hlast
      simp [remeasureNewest, hlast, sizedSegments]
  | some newest =>
      obtain ⟨before, hbefore⟩ := List.getLast?_eq_some_iff.mp hlast
      rw [hbefore, List.map_append, List.map_singleton] at hlisted
      have hthere : newest.listed ∈ present d.files (parseLivePlaylistLines py playlist.lines).2 :=
        hlisted ▸ List.mem_append_right _ (List.mem_singleton_self _)
      obtain ⟨size, hsize⟩ : ∃ size, d.files newest.segName = some size :=
        Option.isSome_iff_exists.mp (List.mem_filter.mp hthere).2
      have hsame : cached.bySequence.map SizedSegment.listed =
          (before ++ [{ newest with size }]).map SizedSegment.listed := by
        simp [hbefore, SizedSegment.listed]
      rw [hsame, measuredSegments_map_listed]
      · simp [remeasureNewest, hsize, hbefore]
      · intro seg hseg
        rcases List.mem_append.mp hseg with hseg | hseg
        · have hearlier := mem_dropLast_of_filter hlisted.symm (List.mem_map.mpr ⟨seg, hseg, rfl⟩)
          exact h.size_eq hp hearlier (by simp [hbefore, hseg]) rfl
        · obtain rfl := List.mem_singleton.mp hseg
          exact hsize

/-- What a call makes of a playlist: its entries as they are on the disk. -/
theorem orderedSegments_fst (hp : d.playlist = some playlist)
    (hsound : ∀ cached, trustedManifest cache state.channelUuid state.accessToken = some cached →
      cached.Sound py d) :
    (orderedSegments py state playlist d.files cache).1 =
      ((parseLivePlaylistLines py playlist.lines).1,
        measuredSegments d.files (parseLivePlaylistLines py playlist.lines).2) := by
  simp only [orderedSegments]
  split
  · next unchanged hunchanged =>
      obtain ⟨htrusted, hstamp⟩ := Option.filter_eq_some_iff.mp hunchanged
      rw [Bool.and_eq_true, beq_iff_eq, beq_iff_eq] at hstamp
      have hstamp : (unchanged.playlistMtimeNs, unchanged.playlistSize) = playlist.stamp :=
        Prod.ext hstamp.1 hstamp.2
      have hs := hsound unchanged htrusted
      rw [remeasureNewest_eq hs hp hstamp, (hs.current playlist hp hstamp).1]
  · refine Prod.ext rfl (sizedSegments_eq_measured fun seg hseg reused hreused hname => ?_)
    cases htrusted : trustedManifest cache state.channelUuid state.accessToken with
    | none => rw [htrusted] at hreused; simp at hreused
    | some cached =>
        rw [htrusted] at hreused
        exact (hsound cached htrusted).size_eq hp hseg hreused hname

/-- An entry made of what is on the disk is sound. -/
theorem sound_measured (hp : d.playlist = some playlist) (token : Option Text) :
    CachedManifest.Sound py
      { instanceToken := token
        playlistMtimeNs := playlist.mtimeNs
        playlistSize := playlist.size
        mediaSequence := (parseLivePlaylistLines py playlist.lines).1
        bySequence :=
          measuredSegments d.files (parseLivePlaylistLines py playlist.lines).2 } d where
  settled _ _ name _ seg hseg hname := hname ▸ (mem_measuredSegments hseg).2
  current playlist' hp' _ := by
    obtain rfl := Option.some.inj (hp.symm.trans hp')
    exact ⟨rfl, map_listed_measuredSegments⟩

/-- What a call leaves in the cache: what was there, and for its own channel an
entry that is sound for its directory. -/
theorem mem_orderedSegments_snd (hp : d.playlist = some playlist)
    (hkeyed : Keyed cache)
    (hsound : ∀ cached, trustedManifest cache state.channelUuid state.accessToken = some cached →
      cached.Sound py d) {entry : Text × CachedManifest}
    (h : entry ∈ (orderedSegments py state playlist d.files cache).2) :
    (entry ∈ cache ∧ entry.1 ≠ state.channelUuid) ∨
      (entry.1 = state.channelUuid ∧ entry.2.instanceToken = state.accessToken ∧
        entry.2.Sound py d) := by
  have hfst := orderedSegments_fst hp hsound
  simp only [orderedSegments] at h hfst
  split at h
  · next unchanged hunchanged =>
      obtain ⟨htrusted, hstamp⟩ := Option.filter_eq_some_iff.mp hunchanged
      rw [Bool.and_eq_true, beq_iff_eq, beq_iff_eq] at hstamp
      have hstamp : (unchanged.playlistMtimeNs, unchanged.playlistSize) = playlist.stamp :=
        Prod.ext hstamp.1 hstamp.2
      have hs := hsound unchanged htrusted
      obtain ⟨hmem, -, htoken⟩ := trustedManifest_eq_some htrusted
      obtain ⟨old, hold, rfl⟩ := List.mem_map.mp h
      by_cases hkey : old.1 = state.channelUuid
      · obtain rfl := hkeyed old hold _ hmem hkey
        refine .inr ⟨by simp, by simpa using htoken, ?_⟩
        have hmeasured : CachedManifest.Sound py _ d := sound_measured hp unchanged.instanceToken
        have hmtime : unchanged.playlistMtimeNs = playlist.mtimeNs := congrArg Prod.fst hstamp
        have hsize : unchanged.playlistSize = playlist.size := congrArg Prod.snd hstamp
        have hsequence : unchanged.mediaSequence = (parseLivePlaylistLines py playlist.lines).1 :=
          (hs.current playlist hp hstamp).1
        simpa [remeasureNewest_eq hs hp hstamp, hmtime, hsize, hsequence] using hmeasured
      · exact .inl (by simpa [hkey] using hold)
  · next hnone =>
      rw [hnone] at hfst
      have hsizes := congrArg Prod.snd hfst
      dsimp only at hsizes
      rw [hsizes] at h
      rcases Containers.mem_touch h with ⟨hold, hne⟩ | rfl
      · exact .inl ⟨hold, hne⟩
      · exact .inr ⟨rfl, rfl, sound_measured hp state.accessToken⟩

theorem keyed_orderedSegments (hkeyed : Keyed cache) :
    Keyed (orderedSegments py state playlist d.files cache).2 := by
  simp only [orderedSegments]
  split
  · intro a ha b hb hab
    obtain ⟨a', ha', rfl⟩ := List.mem_map.mp ha
    obtain ⟨b', hb', rfl⟩ := List.mem_map.mp hb
    have hkeys : a'.1 = b'.1 := by
      split at hab <;> split at hab <;> exact hab
    rw [hkeyed a' ha' b' hb' hkeys]
  · intro a ha b hb hab
    rcases Containers.mem_touch ha with ⟨ha, hnea⟩ | rfl <;>
      rcases Containers.mem_touch hb with ⟨hb, hneb⟩ | rfl
    · exact hkeyed a ha b hb hab
    · exact absurd hab hnea
    · exact absurd hab.symm hneb
    · rfl

/-- What was found on the disk is laid out under the instance's numbers. -/
theorem manifestAnswer_ok (hd : d.Inv py) (hp : d.playlist = some playlist) {ended : Bool}
    {found : Int × List SizedSegment}
    (hfound : found = ((parseLivePlaylistLines py playlist.lines).1,
      measuredSegments d.files (parseLivePlaylistLines py playlist.lines).2))
    {m : Manifest} (h : manifestAnswer ended found = .ok m) :
    m.Contiguous ∧ ∀ seg ∈ m.segments, (seg.sequence, seg.filename) ∈ d.numbered := by
  simp only [manifestAnswer] at h
  split at h
  · contradiction
  · obtain rfl := Except.ok.inj h
    refine ⟨manifestOf_contiguous _ _ _, fun seg hseg => ?_⟩
    obtain ⟨entry, hentry, hsequence, hname⟩ := mem_placeSegments hseg
    rw [← hsequence, ← hname]
    rw [hfound] at hentry
    exact hd.listed playlist hp _ (mem_measuredSegments hentry).1

/-- A call's answer and what it leaves in the cache. -/
theorem getLiveManifest_spec (py : Python) (state : ManifestState) (running : Bool)
    (hd : d.Inv py) (hkeyed : Keyed cache)
    (hsound : ∀ cached, trustedManifest cache state.channelUuid state.accessToken = some cached →
      cached.Sound py d) :
    (getLiveManifest py state running (some d.toChannelDir) cache).1 =
        (getLiveManifest py state running (some d.toChannelDir) []).1 ∧
      (∀ m, (getLiveManifest py state running (some d.toChannelDir) cache).1 = .ok m →
        m.Contiguous ∧ ∀ seg ∈ m.segments, (seg.sequence, seg.filename) ∈ d.numbered) ∧
      Keyed (getLiveManifest py state running (some d.toChannelDir) cache).2 ∧
      ∀ entry ∈ (getLiveManifest py state running (some d.toChannelDir) cache).2,
        entry ∈ cache ∨ (entry.1 = state.channelUuid ∧
          entry.2.instanceToken = state.accessToken ∧ entry.2.Sound py d) := by
  have hcold : ∀ cached, trustedManifest [] state.channelUuid state.accessToken = some cached →
      cached.Sound py d := by simp [trustedManifest]
  by_cases huuid : py.isUuid state.channelUuid
  · simp only [getLiveManifest, huuid, not_true_eq_false, if_false, Option.bind_some,
      Option.map_some, Option.getD_some]
    cases hp : d.playlist with
    | none =>
        dsimp only
        split
        · exact ⟨rfl, by simp, hkeyed, fun entry h => .inl h⟩
        · exact ⟨rfl, by simp, hkeyed, fun entry h => .inl h⟩
    | some playlist =>
        refine ⟨?_, fun m hm => ?_, keyed_orderedSegments hkeyed, fun entry hentry => ?_⟩
        · show manifestAnswer _ _ = manifestAnswer _ _
          rw [orderedSegments_fst hp hsound, orderedSegments_fst hp hcold]
        · exact manifestAnswer_ok hd hp (orderedSegments_fst hp hsound) hm
        · exact (mem_orderedSegments_snd hp hkeyed hsound hentry).imp And.left id
  · simp only [getLiveManifest, huuid]
    exact ⟨rfl, by simp, hkeyed, fun entry h => .inl h⟩

/-- Without a directory there is no manifest, and the cache is left alone. -/
theorem getLiveManifest_none (cache : ManifestCache) (py : Python) (state : ManifestState) (running : Bool) :
    (getLiveManifest py state running none cache).1 =
        (getLiveManifest py state running none []).1 ∧
      (∀ m, (getLiveManifest py state running none cache).1 ≠ .ok m) ∧
      (getLiveManifest py state running none cache).2 = cache := by
  simp only [getLiveManifest, Option.bind_none, Option.map_none]
  split
  · simp
  · split <;> simp

end Answer

/-! ## the runs -/

namespace Worker

variable {py : Python} {s s' : Worker} {e : ManifestEvent}

/-- A file has one number in all manifests of an instance, and a number one file. -/
def SequencesKept (answers : List ManifestAnswer) : Prop :=
  ∀ a ∈ answers, ∀ b ∈ answers, a.token = b.token → ∀ m m', a.given = .ok m → b.given = .ok m' →
    ∀ seg ∈ m.segments, ∀ seg' ∈ m'.segments,
      (seg.filename = seg'.filename ↔ seg.sequence = seg'.sequence)

/-- Every call answered what it would have answered with an empty cache, end to
end from 0, and a file never changed its number. -/
structure Transparent (answers : List ManifestAnswer) : Prop where
  given : ∀ a ∈ answers, a.given = a.cold
  contiguous : ∀ a ∈ answers, ∀ m, a.given = .ok m → m.Contiguous
  sequencesKept : SequencesKept answers

/-- The directories are their instances', the cache is sound for each of them,
and the answers have been as they should. -/
structure Inv (py : Python) (s : Worker) : Prop where
  dirs : ∀ path d, s.dirs path = some d → d.Inv py ∧ d.token ≠ [] ∧ d.token ∈ s.tokens
  distinct : ∀ path d path' d', s.dirs path = some d → s.dirs path' = some d' →
    d.token = d'.token → path = path'
  keyed : Keyed s.cache
  known : ∀ cached ∈ s.cache, ∀ token, cached.2.instanceToken = some token → token ≠ [] →
    token ∈ s.tokens
  sound : ∀ path d, s.dirs path = some d → ∀ cached ∈ s.cache, cached.1 = path.2 →
    cached.2.instanceToken = some d.token → cached.2.Sound py d
  transparent : Transparent s.answers
  answered : ∀ a ∈ s.answers, ∀ token, a.token = some token → token ∈ s.tokens ∧
    ∀ path d, s.dirs path = some d → d.token = token → ∀ m, a.given = .ok m →
      ∀ seg ∈ m.segments, (seg.sequence, seg.filename) ∈ d.numbered
  found : ∀ a ∈ s.answers, ∀ m, a.given = .ok m → a.token.isSome

theorem inv_init (py : Python) : Inv py {} where
  dirs := by simp
  distinct := by simp
  keyed := by simp [Keyed]
  known := by simp
  sound := by simp
  transparent := ⟨by simp, by simp, by simp [SequencesKept]⟩
  answered := by simp
  found := by simp

@[simp] theorem dirs_setDir_self (path : Text × Text) (d : Option InstanceDir) :
    (s.setDir path d).dirs path = d := by
  simp [setDir]

theorem dirs_setDir_of_ne {path path' : Text × Text} (d : Option InstanceDir)
    (hne : path' ≠ path) : (s.setDir path d).dirs path' = s.dirs path' := by
  simp [setDir, hne]

/-- A directory's own instance moves it on. -/
theorem Inv.setDir (h : s.Inv py) {path : Text × Text} {d d' : InstanceDir}
    (hd : s.dirs path = some d) (hd' : d'.Inv py) (htoken : d'.token = d.token)
    (hnumbered : ∀ a ∈ d.numbered, a ∈ d'.numbered)
    (hsound : ∀ cached ∈ s.cache, cached.1 = path.2 → cached.2.instanceToken = some d.token →
      cached.2.Sound py d → cached.2.Sound py d') : (s.setDir path (some d')).Inv py := by
  -- each directory afterwards stands for one before, of the same token
  have hbefore : ∀ path' e, (s.setDir path (some d')).dirs path' = some e →
      ∃ e', s.dirs path' = some e' ∧ e'.token = e.token ∧
        (path' = path ∧ e = d' ∨ path' ≠ path ∧ e = e') := by
    intro path' e he
    by_cases hpath : path' = path
    · subst hpath
      rw [dirs_setDir_self] at he
      obtain rfl := Option.some.inj he
      exact ⟨d, hd, htoken.symm, .inl ⟨rfl, rfl⟩⟩
    · rw [dirs_setDir_of_ne _ hpath] at he
      exact ⟨e, he, rfl, .inr ⟨hpath, rfl⟩⟩
  constructor
  · intro path' e he
    obtain ⟨e', he', htok, hcase⟩ := hbefore path' e he
    obtain ⟨hinv, hne, hknown⟩ := h.dirs path' e' he'
    rw [← htok]
    rcases hcase with ⟨-, rfl⟩ | ⟨-, rfl⟩
    · exact ⟨hd', hne, hknown⟩
    · exact ⟨hinv, hne, hknown⟩
  · intro p₁ e₁ p₂ e₂ he₁ he₂ heq
    obtain ⟨e₁', he₁', htok₁, -⟩ := hbefore p₁ e₁ he₁
    obtain ⟨e₂', he₂', htok₂, -⟩ := hbefore p₂ e₂ he₂
    exact h.distinct p₁ e₁' p₂ e₂' he₁' he₂' (by rw [htok₁, htok₂, heq])
  · exact h.keyed
  · exact h.known
  · intro path' e he cached hcached hkey htok
    obtain ⟨e', he', htok', hcase⟩ := hbefore path' e he
    have hold := h.sound path' e' he' cached hcached hkey (htok'.symm ▸ htok)
    rcases hcase with ⟨rfl, rfl⟩ | ⟨-, rfl⟩
    · obtain rfl := Option.some.inj (hd.symm.trans he')
      exact hsound cached hcached hkey (htok'.symm ▸ htok) hold
    · exact hold
  · exact h.transparent
  · intro a ha token htok
    obtain ⟨hknown, hold⟩ := h.answered a ha token htok
    refine ⟨hknown, fun path' e he hetok m hm seg hseg => ?_⟩
    obtain ⟨e', he', htok', hcase⟩ := hbefore path' e he
    have hin := hold path' e' he' (htok'.trans hetok) m hm seg hseg
    rcases hcase with ⟨rfl, rfl⟩ | ⟨-, rfl⟩
    · obtain rfl := Option.some.inj (hd.symm.trans he')
      exact hnumbered _ hin
    · exact hin
  · exact h.found

/-- A directory goes away. -/
theorem Inv.removeDir (h : s.Inv py) (path : Text × Text) : (s.setDir path none).Inv py := by
  have hbefore : ∀ path' e, (s.setDir path none).dirs path' = some e →
      s.dirs path' = some e := by
    intro path' e he
    by_cases hpath : path' = path
    · subst hpath
      simp at he
    · rwa [dirs_setDir_of_ne _ hpath] at he
  constructor
  · exact fun path' e he => h.dirs path' e (hbefore path' e he)
  · exact fun p₁ e₁ p₂ e₂ he₁ he₂ => h.distinct p₁ e₁ p₂ e₂ (hbefore p₁ e₁ he₁) (hbefore p₂ e₂ he₂)
  · exact h.keyed
  · exact h.known
  · exact fun path' e he => h.sound path' e (hbefore path' e he)
  · exact h.transparent
  · intro a ha token htok
    obtain ⟨hknown, hold⟩ := h.answered a ha token htok
    exact ⟨hknown, fun path' e he => hold path' e (hbefore path' e he)⟩
  · exact h.found

/-- A buffer is started, with a token no one has had. -/
theorem Inv.newInstance (h : s.Inv py) {path : Text × Text} {token : Text} (hne : token ≠ [])
    (hfresh : token ∉ s.tokens) :
    (({ s with tokens := token :: s.tokens } : Worker).setDir path (some { token })).Inv py := by
  have hbefore : ∀ path' e,
      (({ s with tokens := token :: s.tokens } : Worker).setDir path (some { token })).dirs path' =
        some e → (path' = path ∧ e = { token }) ∨ (path' ≠ path ∧ s.dirs path' = some e) := by
    intro path' e he
    by_cases hpath : path' = path
    · subst hpath
      rw [dirs_setDir_self] at he
      exact .inl ⟨rfl, (Option.some.inj he).symm⟩
    · rw [dirs_setDir_of_ne _ hpath] at he
      exact .inr ⟨hpath, he⟩
  constructor
  · intro path' e he
    rcases hbefore path' e he with ⟨-, rfl⟩ | ⟨-, he⟩
    · exact ⟨InstanceDir.inv_new py token, hne, List.mem_cons_self ..⟩
    · obtain ⟨hinv, hne', hknown⟩ := h.dirs path' e he
      exact ⟨hinv, hne', List.mem_cons_of_mem _ hknown⟩
  · intro p₁ e₁ p₂ e₂ he₁ he₂ heq
    rcases hbefore p₁ e₁ he₁ with ⟨rfl, rfl⟩ | ⟨-, hold₁⟩ <;>
      rcases hbefore p₂ e₂ he₂ with ⟨rfl, rfl⟩ | ⟨-, hold₂⟩
    · rfl
    · have heq : token = e₂.token := heq
      exact absurd (heq ▸ (h.dirs p₂ e₂ hold₂).2.2) hfresh
    · have heq : e₁.token = token := heq
      exact absurd (heq ▸ (h.dirs p₁ e₁ hold₁).2.2) hfresh
    · exact h.distinct p₁ e₁ p₂ e₂ hold₁ hold₂ heq
  · exact h.keyed
  · exact fun cached hcached t ht hne => List.mem_cons_of_mem _ (h.known cached hcached t ht hne)
  · intro path' e he cached hcached hkey htok
    rcases hbefore path' e he with ⟨-, rfl⟩ | ⟨-, he⟩
    · exact absurd (h.known cached hcached token htok hne) hfresh
    · exact h.sound path' e he cached hcached hkey htok
  · exact h.transparent
  · intro a ha t htok
    obtain ⟨hknown, hold⟩ := h.answered a ha t htok
    refine ⟨List.mem_cons_of_mem _ hknown, fun path' e he hetok => ?_⟩
    rcases hbefore path' e he with ⟨-, rfl⟩ | ⟨-, he⟩
    · have hetok : token = t := hetok
      exact absurd (hetok ▸ hknown) hfresh
    · exact hold path' e he hetok
  · exact h.found

/-- A channel's entry goes away. -/
theorem Inv.forget (h : s.Inv py) (channelUuid : Text) :
    ({ s with cache := forgetCachedManifest s.cache channelUuid } : Worker).Inv py where
  dirs := h.dirs
  distinct := h.distinct
  keyed a ha b hb := h.keyed a (List.mem_of_mem_filter ha) b (List.mem_of_mem_filter hb)
  known cached hcached := h.known cached (List.mem_of_mem_filter hcached)
  sound path d hd cached hcached := h.sound path d hd cached (List.mem_of_mem_filter hcached)
  transparent := h.transparent
  answered := h.answered
  found := h.found

/-- What a call answers, and what it leaves in the cache. -/
structure Called (py : Python) (s s' : Worker) (state : ManifestState) (a : ManifestAnswer) :
    Prop where
  dirs : s'.dirs = s.dirs
  tokens : s'.tokens = s.tokens
  answers : s'.answers = a :: s.answers
  token : a.token = (s.dirOf state).map (·.token)
  given : a.given = a.cold
  laid : ∀ m, a.given = .ok m → m.Contiguous ∧ ∃ d, s.dirOf state = some d ∧
    ∀ seg ∈ m.segments, (seg.sequence, seg.filename) ∈ d.numbered
  keyed : Keyed s'.cache
  cache : ∀ entry ∈ s'.cache, entry ∈ s.cache ∨ ∃ d, s.dirOf state = some d ∧
    entry.1 = state.channelUuid ∧ entry.2.instanceToken = state.accessToken ∧ entry.2.Sound py d

/-- A call that finds its own instance's directory answers as with an empty
cache. -/
theorem Inv.called (h : s.Inv py) {state : ManifestState} {running : Bool}
    (hown : s.CacheKept py (.call state running)) :
    ∃ a, Called py s (s.call py state running) state a := by
  cases hd : s.dirOf state with
  | none =>
      obtain ⟨hgiven, hnot, hcache⟩ :=
        getLiveManifest_none s.cache py state running
      refine ⟨⟨none, (getLiveManifest py state running none s.cache).1,
        (getLiveManifest py state running none []).1⟩, ?_⟩
      constructor
      · rfl
      · rfl
      · simp [call, hd]
      · simp [hd]
      · exact hgiven
      · exact fun m hm => absurd hm (hnot m)
      · simpa [call, hd, hcache] using h.keyed
      · intro entry hentry
        exact .inl (by simpa [call, hd, hcache] using hentry)
  | some d =>
      obtain ⟨hinv, -, -⟩ := h.dirs _ d hd
      have hsound : ∀ cached,
          trustedManifest s.cache state.channelUuid state.accessToken = some cached →
            cached.Sound py d := by
        intro cached hcached
        obtain ⟨hmem, htruthy, htoken⟩ := trustedManifest_eq_some hcached
        exact h.sound _ d hd _ hmem rfl (htoken.trans (hown htruthy d hd))
      obtain ⟨hgiven, hlaid, hkeyed, hcache⟩ :=
        getLiveManifest_spec py state running hinv h.keyed hsound
      refine ⟨⟨some d.token, (getLiveManifest py state running (some d.toChannelDir) s.cache).1,
        (getLiveManifest py state running (some d.toChannelDir) []).1⟩, ?_⟩
      constructor
      · rfl
      · rfl
      · simp [call, hd]
      · simp [hd]
      · exact hgiven
      · exact fun m hm => ⟨(hlaid m hm).1, d, hd, (hlaid m hm).2⟩
      · simpa [call, hd] using hkeyed
      · intro entry hentry
        have hentry : entry ∈
            (getLiveManifest py state running (some d.toChannelDir) s.cache).2 := by
          simpa [call, hd] using hentry
        exact (hcache entry hentry).imp id fun hnew => ⟨d, hd, hnew⟩

/-- The answers go on as they should. -/
theorem Transparent.called (h : s.Inv py) {state : ManifestState} {a : ManifestAnswer}
    (hc : Called py s s' state a) : Transparent (a :: s.answers) := by
  have hnumbered : ∀ token, a.token = some token → ∀ b ∈ s.answers, b.token = some token →
      ∀ m m', a.given = .ok m → b.given = .ok m' → ∀ seg ∈ m.segments, ∀ seg' ∈ m'.segments,
        (seg.filename = seg'.filename ↔ seg.sequence = seg'.sequence) := by
    intro token hatok b hb hbtok m m' hm hm' seg hseg seg' hseg'
    obtain ⟨-, d, hd, hin⟩ := hc.laid m hm
    have htok : d.token = token := by
      rw [hc.token, hd] at hatok
      exact Option.some.inj hatok
    have hin' := (h.answered b hb token hbtok).2 _ d hd htok m' hm' seg' hseg'
    have hinv := (h.dirs _ d hd).1
    exact ⟨hinv.oneNumber _ (hin seg hseg) _ hin', hinv.oneFile _ (hin seg hseg) _ hin'⟩
  have hsome : ∀ m, a.given = .ok m → ∃ token, a.token = some token := by
    intro m hm
    obtain ⟨-, d, hd, -⟩ := hc.laid m hm
    exact ⟨d.token, by rw [hc.token, hd]; rfl⟩
  constructor
  · intro b hb
    rcases List.mem_cons.mp hb with rfl | hb
    · exact hc.given
    · exact h.transparent.given b hb
  · intro b hb m hm
    rcases List.mem_cons.mp hb with rfl | hb
    · exact (hc.laid m hm).1
    · exact h.transparent.contiguous b hb m hm
  · intro b hb b' hb' htok m m' hm hm' seg hseg seg' hseg'
    rcases List.mem_cons.mp hb with rfl | hold <;> rcases List.mem_cons.mp hb' with rfl | hold'
    · obtain rfl := Except.ok.inj (hm.symm.trans hm')
      obtain ⟨-, d, hd, hin⟩ := hc.laid m hm
      have hinv := (h.dirs _ d hd).1
      exact ⟨hinv.oneNumber _ (hin seg hseg) _ (hin seg' hseg'),
        hinv.oneFile _ (hin seg hseg) _ (hin seg' hseg')⟩
    · obtain ⟨token, hatok⟩ := hsome m hm
      exact hnumbered token hatok b' hold' (htok ▸ hatok) m m' hm hm' seg hseg seg' hseg'
    · obtain ⟨token, hatok⟩ := hsome m' hm'
      rw [eq_comm, eq_comm (a := seg.sequence)]
      exact hnumbered token hatok b hold (htok.trans hatok) m' m hm' hm seg' hseg' seg hseg
    · exact h.transparent.sequencesKept b hold b' hold' htok m m' hm hm' seg hseg seg' hseg'

/-- A call keeps the invariant. -/
theorem Inv.call (h : s.Inv py) {state : ManifestState} {running : Bool}
    (hown : s.CacheKept py (.call state running)) : (s.call py state running).Inv py := by
  obtain ⟨a, hc⟩ := h.called hown
  constructor
  · intro path d hd
    rw [hc.dirs] at hd
    rw [hc.tokens]
    exact h.dirs path d hd
  · rw [hc.dirs]
    exact h.distinct
  · exact hc.keyed
  · intro cached hcached token htok hne
    rw [hc.tokens]
    rcases hc.cache cached hcached with hold | ⟨d, hd, -, htoken, -⟩
    · exact h.known cached hold token htok hne
    · have hstate : state.accessToken = some token := htoken.symm.trans htok
      have hd' := hown (by simp [hstate, hne]) d hd
      obtain rfl := Option.some.inj (hstate.symm.trans hd')
      exact (h.dirs _ d hd).2.2
  · intro path d hd cached hcached hkey htok
    rw [hc.dirs] at hd
    rcases hc.cache cached hcached with hold | ⟨d', hd', hchannel, htoken, hsound⟩
    · exact h.sound path d hd cached hold hkey htok
    · -- a token names one directory, so the entry's is this one
      have hstate : state.accessToken = some d.token := htoken.symm.trans htok
      have hsame := hown (by simp [hstate, (h.dirs path d hd).2.1]) d' hd'
      have heq : d.token = d'.token := Option.some.inj (hstate.symm.trans hsame)
      obtain rfl := h.distinct path d _ d' hd hd' heq
      obtain rfl := Option.some.inj (hd.symm.trans hd')
      exact hsound
  · rw [hc.answers]
    exact Transparent.called h hc
  · intro b hb token htok
    rw [hc.tokens, hc.dirs]
    rw [hc.answers] at hb
    rcases List.mem_cons.mp hb with rfl | hb
    · rw [hc.token] at htok
      obtain ⟨d, hd, rfl⟩ := Option.map_eq_some_iff.mp htok
      refine ⟨(h.dirs _ d hd).2.2, fun path d' hd' heq m hm seg hseg => ?_⟩
      obtain rfl := h.distinct path d' _ d hd' hd heq
      obtain rfl := Option.some.inj (hd.symm.trans hd')
      obtain ⟨-, d'', hd'', hin⟩ := hc.laid m hm
      obtain rfl := Option.some.inj (hd'.symm.trans hd'')
      exact hin seg hseg
    · exact h.answered b hb token htok
  · intro b hb m hm
    rw [hc.answers] at hb
    rcases List.mem_cons.mp hb with rfl | hb
    · obtain ⟨-, d, hd, -⟩ := hc.laid m hm
      rw [hc.token, hd]
      rfl
    · exact h.found b hb m hm

/-- Every step that keeps the sizes keeps the invariant. -/
theorem Inv.step (h : s.Inv py) (hkept : s.CacheKept py e) (hs : s.step py e = some s') :
    s'.Inv py := by
  cases e with
  | newInstance path token =>
      simp only [Worker.step] at hs
      split at hs
      · next hok =>
          obtain rfl := Option.some.inj hs
          exact h.newInstance hok.1 hok.2
      · contradiction
  | removeDir path =>
      obtain rfl := Option.some.inj hs
      exact h.removeDir path
  | rewrite path playlist =>
      obtain ⟨d, hd, hs⟩ := Option.bind_eq_some_iff.mp hs
      obtain ⟨d', hd', rfl⟩ := Option.map_eq_some_iff.mp hs
      obtain ⟨-, heq⟩ := InstanceDir.rewrite_eq_some hd'
      obtain ⟨hcurrent, hstamp, hnumber⟩ := hkept d hd
      refine h.setDir hd (InstanceDir.inv_rewrite hd' hnumber) (by rw [heq]) ?_ ?_
      · intro a ha
        rw [heq]
        exact List.mem_append_left _ ha
      · intro cached hcached hkey htok _
        exact CachedManifest.Sound.rewrite hd' (fun name hname =>
          hcurrent name hname cached hcached hkey htok) (hstamp cached hcached hkey htok)
  | write path name size =>
      obtain ⟨d, hd, hs⟩ := Option.bind_eq_some_iff.mp hs
      obtain ⟨d', hd', rfl⟩ := Option.map_eq_some_iff.mp hs
      have hinv := (h.dirs path d hd).1
      obtain ⟨-, heq⟩ := InstanceDir.write_eq_some hd'
      refine h.setDir hd (heq ▸ hinv.files _) (by rw [heq]) (by simp [heq])
        fun cached hcached hkey htok hsound => hsound.write hinv hd' ?_
      exact fun hnone p hp hlisted => hkept d hd hnone p hp hlisted cached hcached hkey htok
  | delete path name =>
      obtain ⟨d, hd, hs⟩ := Option.bind_eq_some_iff.mp hs
      obtain ⟨d', hd', rfl⟩ := Option.map_eq_some_iff.mp hs
      obtain ⟨-, heq⟩ := InstanceDir.delete_eq_some hd'
      exact h.setDir hd (heq ▸ (h.dirs path d hd).1.files _) (by rw [heq]) (by simp [heq])
        fun cached _ _ _ hsound => hsound.delete hd'
  | log path lines =>
      obtain ⟨d, hd, rfl⟩ := Option.map_eq_some_iff.mp hs
      obtain ⟨hinv, -, -⟩ := h.dirs path d hd
      exact h.setDir hd ⟨hinv.oneFile, hinv.oneNumber, hinv.listed, hinv.settled⟩ rfl
        (fun _ ha => ha) fun cached _ _ _ hsound => ⟨hsound.settled, hsound.current⟩
  | forget channelUuid =>
      obtain rfl := Option.some.inj hs
      exact h.forget channelUuid
  | call state running =>
      obtain rfl := Option.some.inj hs
      exact h.call hkept

/-- **The manifest cache is transparent** in every run in which no file grows
behind the last call that measured it as the newest or comes up behind the call that
missed it, no playlist is taken for an older one that the cache was made from or
gives a file a second number, and each call finds its own instance's directory:
every manifest is the one the same call with an empty cache would give, laid out end
to end from 0, and a file keeps its sequence. -/
theorem liveManifest_transparent (py : Python) {es : List ManifestEvent} {s : Worker}
    (hkept : Meets (Worker.step py) (CacheKept py) {} es)
    (hrun : run (Worker.step py) {} es = some s) : Transparent s.answers :=
  (invariant_of_meets (fun h hC hs => h.step hC hs) (inv_init py) hkept hrun).transparent

/-! ## a segment that grows behind its measurement -/

/-- Every identifier is taken, and every duration is two seconds. -/
def twoSeconds : Python where
  isUuid _ := true
  milliseconds _ := some 2000

/-- The channel's directory. -/
def examplePath : Text × Text := ("/data/timeshift".toList, "c".toList)

/-- The buffer's state. -/
def exampleState : ManifestState where
  channelUuid := examplePath.2
  storagePath := examplePath.1
  accessToken := some "a".toList
  pid := some 41

/-- A playlist from its first file on. -/
def examplePlaylist (mtimeNs : Int) (names : List String) : Playlist where
  mtimeNs := mtimeNs
  size := 60 + 30 * names.length
  lines := "#EXTM3U".toList :: "#EXT-X-MEDIA-SEQUENCE:0".toList ::
    names.flatMap fun name => ["#EXTINF:2.000000,".toList, name.toList]

/-- A call while the first segment is half written. -/
def measuredEarly : List ManifestEvent :=
  [.newInstance examplePath "a".toList,
    .write examplePath "seg_00000.ts".toList 100,
    .rewrite examplePath (examplePlaylist 1 ["seg_00000.ts"]),
    .call exampleState true,
    .write examplePath "seg_00000.ts".toList 200]

/-- The next segment is listed, and the next call answers. -/
def listedLater : List ManifestEvent :=
  [.write examplePath "seg_00001.ts".toList 50,
    .rewrite examplePath (examplePlaylist 2 ["seg_00000.ts", "seg_00001.ts"]),
    .call exampleState true]

/-- The size measured early is what the next call goes on with, though the file
has grown: with an empty cache it would answer the size the file has. -/
theorem measuredEarly_answered_with_old_size :
    ¬ ∀ (py : Python) (es : List ManifestEvent) (s : Worker),
      run (Worker.step py) {} es = some s → Transparent s.answers := by
  intro hall
  have hsome : (run (Worker.step twoSeconds) {} (measuredEarly ++ listedLater)).isSome := by decide
  have hgiven := (hall _ _ _ (Option.some_get hsome).symm).given
  have hnot : ¬ ∀ a ∈ (Option.get _ hsome).answers, a.given = a.cold := by decide +revert
  exact hnot hgiven

/-- A call in between measures it again. -/
theorem liveManifest_transparent_measuredAgain :
    ∃ s, run (Worker.step twoSeconds) {}
        (measuredEarly ++ .call exampleState true :: listedLater) = some s ∧
      s.answers.length = 3 ∧ Transparent s.answers := by
  have hsome : (run (Worker.step twoSeconds) {}
      (measuredEarly ++ .call exampleState true :: listedLater)).isSome := by decide
  refine ⟨Option.get _ hsome, (Option.some_get hsome).symm, by decide +revert, ?_⟩
  exact liveManifest_transparent twoSeconds (by decide) (Option.some_get hsome).symm

end Worker

end TimeshiftBuffer

end DispatcharrPvr
