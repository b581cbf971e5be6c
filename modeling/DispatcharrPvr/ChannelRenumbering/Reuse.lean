import DispatcharrPvr.ChannelNumber
import Mathlib.Data.List.Nodup

/-!
# ChannelRenumbering.Reuse

What `HaveChannelNumbersChanged` answers when the old lineup repeats no id: it
is false exactly when every channel that stays keeps its key and no key
of the old lineup is held by a channel that did not hold it
(`haveChannelNumbersChanged_eq_false_iff`).  An empty key is no key.
-/

namespace DispatcharrPvr

theorem oldKeyById_eq_some_iff {oldChannels : List GuideChannel}
    (h : (oldChannels.map (·.id)).Nodup) {id : Int} {key : ByteString} :
    oldKeyById oldChannels id = some key ↔ ⟨id, key⟩ ∈ oldChannels := by
  have hmem : ∀ {channel : GuideChannel},
      oldChannels.reverse.find? (·.id == id) = some channel →
        channel ∈ oldChannels ∧ channel.id = id := by
    intro channel hfind
    exact ⟨List.mem_reverse.mp (List.mem_of_find?_eq_some hfind),
      by simpa using List.find?_some hfind⟩
  unfold oldKeyById
  cases hfind : oldChannels.reverse.find? (·.id == id) with
  | none =>
      have hne := List.find?_eq_none.mp hfind
      simp only [Option.map_none, reduceCtorEq, false_iff]
      intro hin
      simpa using hne _ (List.mem_reverse.mpr hin)
  | some channel =>
      obtain ⟨hin, rfl⟩ := hmem hfind
      rw [Option.map_some, Option.some.injEq]
      constructor
      · rintro rfl
        exact hin
      · intro hin'
        rw [List.inj_on_of_nodup_map h hin hin' rfl]

theorem mem_oldIdsByKey {oldChannels : List GuideChannel} {key : ByteString} (hkey : key ≠ [])
    {id : Int} : id ∈ oldIdsByKey oldChannels key ↔ ⟨id, key⟩ ∈ oldChannels := by
  rw [oldIdsByKey, if_neg (by simpa using hkey)]
  simp only [List.mem_map, List.mem_filter, beq_iff_eq]
  constructor
  · rintro ⟨channel, ⟨hin, rfl⟩, rfl⟩
    exact hin
  · intro hin
    exact ⟨_, ⟨hin, rfl⟩, rfl⟩

/-- Every channel that stays keeps its key, and every key of the old lineup
stays with channels that held it. -/
structure KeepsNumbers (oldChannels newChannels : List GuideChannel) : Prop where
  kept : ∀ o ∈ oldChannels, ∀ n ∈ newChannels, o.id = n.id → o.guideKey = n.guideKey
  held : ∀ key ≠ [], key ∈ oldChannels.map (·.guideKey) →
    ∀ n ∈ newChannels, n.guideKey = key → n ∈ oldChannels

/-- What the loop over the new channels finds. -/
theorem haveChannelNumbersChanged_eq_false_iff {oldChannels newChannels : List GuideChannel}
    (h : (oldChannels.map (·.id)).Nodup) :
    haveChannelNumbersChanged oldChannels newChannels = false ↔
      KeepsNumbers oldChannels newChannels := by
  have hkept : ∀ n : GuideChannel, (oldKeyById oldChannels n.id).any (· != n.guideKey) = false ↔
      ∀ o ∈ oldChannels, o.id = n.id → o.guideKey = n.guideKey := by
    intro n
    rw [Option.any_eq_false]
    constructor
    · intro hkeys o ho hid
      have hfind := (oldKeyById_eq_some_iff h).mpr (show ⟨n.id, o.guideKey⟩ ∈ oldChannels from
        hid ▸ ho)
      simpa using hkeys _ hfind
    · intro hkeys key hfind
      simpa using hkeys _ ((oldKeyById_eq_some_iff h).mp hfind) rfl
  have hheld : ∀ n : GuideChannel,
      (!n.guideKey.isEmpty && !(oldIdsByKey oldChannels n.guideKey).isEmpty &&
        !(oldIdsByKey oldChannels n.guideKey).contains n.id) = false ↔
      (n.guideKey ≠ [] → n.guideKey ∈ oldChannels.map (·.guideKey) → n ∈ oldChannels) := by
    intro n
    by_cases hempty : n.guideKey = []
    · simp [hempty]
    · have hnonempty : (oldIdsByKey oldChannels n.guideKey).isEmpty = false ↔
          n.guideKey ∈ oldChannels.map (·.guideKey) := by
        rw [List.isEmpty_eq_false_iff_exists_mem]
        simp only [mem_oldIdsByKey hempty, List.mem_map]
        exact ⟨fun ⟨id, hin⟩ => ⟨_, hin, rfl⟩, fun ⟨o, ho, hkey⟩ => ⟨o.id, hkey ▸ ho⟩⟩
      have hcontains : (oldIdsByKey oldChannels n.guideKey).contains n.id = true ↔
          n ∈ oldChannels := by
        rw [List.contains_iff_mem, mem_oldIdsByKey hempty]
      rw [← hnonempty, ← hcontains]
      cases (oldIdsByKey oldChannels n.guideKey).isEmpty <;> simp [hempty]
  unfold haveChannelNumbersChanged isRenumbered
  rw [List.any_eq_false]
  simp only [Bool.not_eq_true, Bool.or_eq_false_iff, hkept, hheld]
  constructor
  · intro hall
    refine ⟨fun o ho n hn => (hall n hn).1 o ho, ?_⟩
    rintro key hkey hold n hn rfl
    exact (hall n hn).2 hkey hold
  · intro hkeeps n hn
    exact ⟨fun o ho => hkeeps.kept o ho n hn,
      fun hkey hold => hkeeps.held _ hkey hold n hn rfl⟩

/-! ## lineups -/

/-- Lineups that are equal up to order are unchanged; and when it answers that
nothing changed, a channel of both lineups has one key, and a key of the old
lineup is only held by channels that held it.  The new lineup may repeat ids. -/
theorem haveChannelNumbersChanged_catches (shortestRoundTripText : Rat → ByteString)
    (oldChannels newChannels : List Channel) (hold : (oldChannels.map (·.id)).Nodup) :
    let changed := haveChannelNumbersChanged
      (oldChannels.map (Channel.guideChannel shortestRoundTripText))
      (newChannels.map (Channel.guideChannel shortestRoundTripText))
    let key := channelGuideKey shortestRoundTripText
    (oldChannels.Perm newChannels → changed = false) ∧
    (changed = false →
      (∀ k ≠ [], (∃ o ∈ oldChannels, key o = k) → ∀ n ∈ newChannels, key n = k →
        ∃ o ∈ oldChannels, o.id = n.id ∧ key o = k) ∧
      ∀ o ∈ oldChannels, ∀ n ∈ newChannels, o.id = n.id → key o = key n) := by
  intro changed key
  have hnodup : ((oldChannels.map (Channel.guideChannel shortestRoundTripText)).map
      (·.id)).Nodup := by
    rw [List.map_map]
    exact hold
  have hiff : changed = false ↔ _ := haveChannelNumbersChanged_eq_false_iff hnodup
  constructor
  · intro hperm
    refine hiff.mpr ⟨?_, ?_⟩
    · intro o ho n hn hid
      have hn' := (hperm.map (Channel.guideChannel shortestRoundTripText)).mem_iff.mpr hn
      rw [List.inj_on_of_nodup_map hnodup ho hn' hid]
    · intro _ _ _ n hn _
      exact (hperm.map (Channel.guideChannel shortestRoundTripText)).mem_iff.mpr hn
  · intro hfalse
    have hkeeps := hiff.mp hfalse
    constructor
    · rintro k hk ⟨o, ho, hok⟩ n hn hnk
      have hin := hkeeps.held k hk
        (List.mem_map.mpr ⟨_, List.mem_map_of_mem ho, hok⟩) _ (List.mem_map_of_mem hn) hnk
      obtain ⟨o', ho', heq⟩ := List.mem_map.mp hin
      obtain ⟨hid, hkey⟩ := GuideChannel.mk.inj heq
      exact ⟨o', ho', hid, hkey.trans hnk⟩
    · intro o ho n hn hid
      exact hkeeps.kept _ (List.mem_map_of_mem ho) _ (List.mem_map_of_mem hn) hid

/-- Two channels that share the number 5, in another order. -/
theorem haveChannelNumbersChanged_catches_shared :
    let oldChannels : List Channel :=
      [{ id := 1, channelNumber := 5 }, { id := 2, channelNumber := 5 }]
    let newChannels : List Channel :=
      [{ id := 2, channelNumber := 5 }, { id := 1, channelNumber := 5 }]
    let changed := haveChannelNumbersChanged
      (oldChannels.map (Channel.guideChannel fun _ => []))
      (newChannels.map (Channel.guideChannel fun _ => []))
    let key := channelGuideKey fun _ => []
    (oldChannels.Perm newChannels → changed = false) ∧
    (changed = false →
      (∀ k ≠ [], (∃ o ∈ oldChannels, key o = k) → ∀ n ∈ newChannels, key n = k →
        ∃ o ∈ oldChannels, o.id = n.id ∧ key o = k) ∧
      ∀ o ∈ oldChannels, ∀ n ∈ newChannels, o.id = n.id → key o = key n) :=
  haveChannelNumbersChanged_catches (fun _ => []) _ _ (by decide)

end DispatcharrPvr
