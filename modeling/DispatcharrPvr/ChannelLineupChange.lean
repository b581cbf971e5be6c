import DispatcharrPvr.ChannelNumber
import Mathlib.Data.List.Dedup
import Mathlib.Data.List.Nodup
import Mathlib.Data.List.Perm.Subperm

/-!
# ChannelLineupChange

Whether a fetched lineup differs from the cached one
(`HasChannelLineupChanged`).  The comparison looks each new channel up among
the old ones and each new group among the old ones, so what it cannot see is
what the new lists repeat, and whether a channel has a number at all.
-/

namespace DispatcharrPvr

/-- `oldById`: the last channel of an id. -/
def oldChannelById (oldChannels : List Channel) (id : Int) : Option Channel :=
  oldChannels.reverse.find? (·.id == id)

/-- The fields the source compares of two channels of one id. -/
def listedAlike (o n : Channel) : Bool :=
  o.uuid = n.uuid ∧ o.name = n.name ∧ o.logoId = n.logoId ∧ o.channelNumber = n.channelNumber ∧
    o.groupId = n.groupId ∧ o.groupName = n.groupName ∧ o.tvgId = n.tvgId ∧
    o.epgDataId = n.epgDataId ∧ o.catchupEnabled = n.catchupEnabled ∧
    o.catchupDays = n.catchupDays ∧ o.isRadio = n.isRadio

/-- `HasChannelLineupChanged`. -/
def hasChannelLineupChanged (oldChannels : List Channel) (oldGroups : List ChannelGroup)
    (newChannels : List Channel) (newGroups : List ChannelGroup) : Bool :=
  if oldChannels.length ≠ newChannels.length ∨ oldGroups.length ≠ newGroups.length then true
  -- duplicate ids in the old snapshot
  else if (oldChannels.map (·.id)).dedup.length ≠ oldChannels.length then true
  else if newChannels.any fun n =>
      match oldChannelById oldChannels n.id with
      | none => true
      | some o => !listedAlike o n then true
  else newGroups.any fun g => !oldGroups.contains g

/-! ## what it compares -/

/-- Nothing it compares differs. -/
structure LooksUnchanged (oldChannels : List Channel) (oldGroups : List ChannelGroup)
    (newChannels : List Channel) (newGroups : List ChannelGroup) : Prop where
  channels_length : oldChannels.length = newChannels.length
  groups_length : oldGroups.length = newGroups.length
  old_nodup : (oldChannels.map (·.id)).Nodup
  channels : ∀ n ∈ newChannels, ∃ o ∈ oldChannels, o.id = n.id ∧ listedAlike o n = true
  groups : newGroups ⊆ oldGroups

theorem eq_of_id_eq {channels : List Channel} (h : (channels.map (·.id)).Nodup) {a b : Channel}
    (ha : a ∈ channels) (hb : b ∈ channels) (hid : a.id = b.id) : a = b :=
  List.inj_on_of_nodup_map h ha hb hid

theorem oldChannelById_eq_some_iff {oldChannels : List Channel}
    (h : (oldChannels.map (·.id)).Nodup) {id : Int} {o : Channel} :
    oldChannelById oldChannels id = some o ↔ o ∈ oldChannels ∧ o.id = id := by
  constructor
  · intro hfind
    exact ⟨List.mem_reverse.mp (List.mem_of_find?_eq_some hfind),
      by simpa using List.find?_some hfind⟩
  · intro ⟨hmem, hid⟩
    cases hfind : oldChannelById oldChannels id with
    | none =>
        have hne := List.find?_eq_none.mp hfind o (List.mem_reverse.mpr hmem)
        simp [hid] at hne
    | some other =>
        have hother := List.mem_reverse.mp (List.mem_of_find?_eq_some hfind)
        have hotherId : other.id = id := by simpa using List.find?_some hfind
        rw [eq_of_id_eq h hother hmem (hotherId.trans hid.symm)]

theorem hasChannelLineupChanged_eq_false_iff {oldChannels newChannels : List Channel}
    {oldGroups newGroups : List ChannelGroup} :
    hasChannelLineupChanged oldChannels oldGroups newChannels newGroups = false ↔
      LooksUnchanged oldChannels oldGroups newChannels newGroups := by
  have hdedup : (oldChannels.map (·.id)).dedup.length = oldChannels.length ↔
      (oldChannels.map (·.id)).Nodup := by
    have hlength : oldChannels.length = (oldChannels.map (·.id)).length := (List.length_map _).symm
    rw [← List.dedup_eq_self, hlength]
    exact ⟨(List.dedup_sublist _).eq_of_length, congrArg List.length⟩
  unfold hasChannelLineupChanged
  by_cases hlengths : oldChannels.length ≠ newChannels.length ∨
      oldGroups.length ≠ newGroups.length
  · rw [if_pos hlengths]
    refine iff_of_false (by decide) fun h => ?_
    exact hlengths.elim (· h.channels_length) (· h.groups_length)
  · rw [not_or, not_not, not_not] at hlengths
    rw [if_neg (by simp [hlengths])]
    by_cases hnodup : (oldChannels.map (·.id)).Nodup
    · rw [if_neg (not_not.mpr (hdedup.mpr hnodup))]
      have hchannels : (newChannels.any fun n =>
          match oldChannelById oldChannels n.id with
          | none => true
          | some o => !listedAlike o n) = false ↔
          ∀ n ∈ newChannels, ∃ o ∈ oldChannels, o.id = n.id ∧ listedAlike o n = true := by
        rw [List.any_eq_false]
        refine forall₂_congr fun n _ => ?_
        cases hfind : oldChannelById oldChannels n.id with
        | none =>
            have hne := List.find?_eq_none.mp hfind
            simp only [not_true_eq_false, false_iff, not_exists, not_and]
            intro o ho hid
            exact absurd hid (by simpa using hne o (List.mem_reverse.mpr ho))
        | some o =>
            obtain ⟨ho, hid⟩ := (oldChannelById_eq_some_iff hnodup).mp hfind
            constructor
            · intro halike
              exact ⟨o, ho, hid, by simpa using halike⟩
            · intro ⟨other, hother, hotherId, halike⟩
              rw [eq_of_id_eq hnodup ho hother (hid.trans hotherId.symm)]
              simp [halike]
      have hgroups : (newGroups.any fun g => !oldGroups.contains g) = false ↔
          newGroups ⊆ oldGroups := by
        simp [List.subset_def]
      split
      · next hany =>
          refine iff_of_false (by decide) fun h => ?_
          rw [hchannels.mpr h.channels] at hany
          contradiction
      · next hany =>
          rw [Bool.not_eq_true] at hany
          rw [hgroups]
          exact ⟨fun h => ⟨hlengths.1, hlengths.2, hnodup, hchannels.mp hany, h⟩,
            fun h => h.groups⟩
    · rw [if_pos (fun h => hnodup (hdedup.mp h))]
      exact iff_of_false (by decide) fun h => hnodup h.old_nodup

/-! ## what it cannot see -/

/-- The new lists repeat nothing the old ones do not, and whether a channel has
a number is as before. -/
structure NothingHidden (oldChannels : List Channel) (oldGroups : List ChannelGroup)
    (newChannels : List Channel) (newGroups : List ChannelGroup) : Prop where
  new_nodup : (newChannels.map (·.id)).Nodup
  numbered : ∀ o ∈ oldChannels, ∀ n ∈ newChannels, o.id = n.id →
    o.hasChannelNumber = n.hasChannelNumber
  groups_count : ∀ g, newGroups.count g ≤ oldGroups.count g

/-- An unchanged lineup is the same channels and the same groups; and lists that
repeat no id and hold the same are unchanged. -/
structure MissesNoChange (oldChannels : List Channel) (oldGroups : List ChannelGroup)
    (newChannels : List Channel) (newGroups : List ChannelGroup) : Prop where
  same : hasChannelLineupChanged oldChannels oldGroups newChannels newGroups = false →
    oldChannels.Perm newChannels ∧ oldGroups.Perm newGroups
  unchanged : (oldChannels.map (·.id)).Nodup → oldChannels.Perm newChannels →
    oldGroups.Perm newGroups →
    hasChannelLineupChanged oldChannels oldGroups newChannels newGroups = false

/-- Two channels alike in every field the source compares, and numbered alike,
are one. -/
theorem eq_of_listedAlike {o n : Channel} (hid : o.id = n.id) (halike : listedAlike o n = true)
    (hnumbered : o.hasChannelNumber = n.hasChannelNumber) : o = n := by
  simp only [listedAlike, decide_eq_true_eq] at halike
  cases o
  cases n
  simp_all

/-- Where nothing it compares differs, the lineup is the same exactly when
nothing is hidden. -/
theorem LooksUnchanged.perm_iff {oldChannels newChannels : List Channel}
    {oldGroups newGroups : List ChannelGroup}
    (h : LooksUnchanged oldChannels oldGroups newChannels newGroups) :
    (oldChannels.Perm newChannels ∧ oldGroups.Perm newGroups) ↔
      NothingHidden oldChannels oldGroups newChannels newGroups := by
  constructor
  · intro ⟨hchannels, hgroups⟩
    refine ⟨(hchannels.map _).nodup_iff.mp h.old_nodup, ?_, fun g => (hgroups.count_eq g).ge⟩
    intro o ho n hn hid
    rw [eq_of_id_eq h.old_nodup ho (hchannels.mem_iff.mpr hn) hid]
  · intro hhidden
    constructor
    · have hsub : newChannels ⊆ oldChannels := by
        intro n hn
        obtain ⟨o, ho, hid, halike⟩ := h.channels n hn
        exact eq_of_listedAlike hid halike (hhidden.numbered o ho n hn hid) ▸ ho
      exact ((List.subperm_of_subset hhidden.new_nodup.of_map hsub).perm_of_length_le
        h.channels_length.le).symm
    · have hsub : newGroups.Subperm oldGroups :=
        List.subperm_ext_iff.mpr fun g _ => hhidden.groups_count g
      exact (hsub.perm_of_length_le h.groups_length.le).symm

/-- No change is missed exactly where, of two lineups that look unchanged, the
new one hides nothing. -/
theorem missesNoChange_iff {oldChannels newChannels : List Channel}
    {oldGroups newGroups : List ChannelGroup} :
    MissesNoChange oldChannels oldGroups newChannels newGroups ↔
      (LooksUnchanged oldChannels oldGroups newChannels newGroups →
        NothingHidden oldChannels oldGroups newChannels newGroups) := by
  constructor
  · intro hmisses hlooks
    exact hlooks.perm_iff.mp (hmisses.same (hasChannelLineupChanged_eq_false_iff.mpr hlooks))
  · intro hhidden
    constructor
    · intro hfalse
      have hlooks := hasChannelLineupChanged_eq_false_iff.mp hfalse
      exact hlooks.perm_iff.mpr (hhidden hlooks)
    · intro hnodup hchannels hgroups
      refine hasChannelLineupChanged_eq_false_iff.mpr
        ⟨hchannels.length_eq, hgroups.length_eq, hnodup, ?_, fun g hg => hgroups.mem_iff.mpr hg⟩
      intro n hn
      exact ⟨n, hchannels.mem_iff.mpr hn, rfl, by simp [listedAlike]⟩

/-- A channel without a number that is given the number 0. -/
theorem missesNoChange_null_to_zero :
    ¬ MissesNoChange [{ id := 7, hasChannelNumber := false }] [] [{ id := 7 }] [] := by
  intro h
  have hsame := (h.same (by decide)).1
  rw [List.perm_singleton, List.cons.injEq, Channel.mk.injEq] at hsame
  simp at hsame

end DispatcharrPvr
