import DispatcharrPvr.AdoptionMigration
import DispatcharrPvr.Lib.Utf8

/-!
# ManagedRecurringRule.TagAlgebra

The tag at the end of a rule's name: adding it keeps a name valid and within the
server's limit, adding it again changes nothing, and taking it off gives back
the name, or as many of its characters as there was room for.
-/

namespace DispatcharrPvr

open Utf8

/-! ## cutting a name -/

/-- The cut of the source is a cut between characters. -/
theorem takeCodePoints_encode (n : Nat) (chars : List Char) :
    takeCodePoints n (encode chars) = encode (chars.take n) := by
  induction n generalizing chars with
  | zero => cases encode chars <;> rfl
  | succ n ih =>
      cases chars with
      | nil => rfl
      | cons c chars =>
          obtain ⟨lead, rest, heq, -, hrest⟩ := exists_lead c
          obtain ⟨htake, hdrop⟩ := takeWhile_append_encode hrest chars
          rw [List.take_succ_cons, encode_cons, encode_cons, heq, List.cons_append, takeCodePoints]
          show lead :: (rest ++ encode chars).takeWhile continues ++
            takeCodePoints n ((rest ++ encode chars).dropWhile continues) = _
          rw [htake, hdrop, ih]

/-- The code points of a name are its characters. -/
theorem codePointCount_encode (chars : List Char) : codePointCount (encode chars) = chars.length :=
  length_filter_encode chars

theorem spacedTag_eq : spacedTag = encode " [Kodi]".toList := by decide

theorem managedRuleMarker_eq : managedRuleMarker = encode "[Kodi]".toList := by decide

/-! ## adding the tag and taking it off -/

/-- A name that is owned ends in the tag, or is the tag. -/
theorem exists_of_isManagedRuleName {name : ByteString} (h : isManagedRuleName name = true) :
    (name = managedRuleMarker ∧ stripManagedRuleMarker name = []) ∨
      ∃ base, base ≠ [] ∧ name = base ++ spacedTag ∧ stripManagedRuleMarker name = base := by
  by_cases hmarker : name = managedRuleMarker
  · exact .inl ⟨hmarker, by rw [stripManagedRuleMarker, if_pos hmarker]⟩
  · have hstrip : stripManagedRuleMarker name = name.take (name.length - spacedTag.length) := by
      rw [stripManagedRuleMarker, if_neg hmarker, if_pos h]
    rw [isManagedRuleName, Bool.or_eq_true, Bool.and_eq_true, decide_eq_true_iff, beq_iff_eq,
      beq_iff_eq] at h
    obtain ⟨hlength, htag⟩ := h.resolve_left hmarker
    refine .inr ⟨name.take (name.length - spacedTag.length), fun hnil => ?_, ?_, hstrip⟩
    · have hzero := congrArg List.length hnil
      rw [List.length_take, List.length_nil] at hzero
      omega
    · conv_lhs => rw [← List.take_append_drop (name.length - spacedTag.length) name, htag]

theorem stripManagedRuleMarker_of_unmanaged {name : ByteString}
    (h : isManagedRuleName name = false) : stripManagedRuleMarker name = name := by
  have hmarker : name ≠ managedRuleMarker := fun heq => by
    rw [heq] at h
    exact absurd h (by decide)
  rw [stripManagedRuleMarker, if_neg hmarker, h, if_neg Bool.false_ne_true]

/-- A tag that was added comes off again. -/
theorem stripManagedRuleMarker_addManagedRuleMarker {name : ByteString}
    (h : isManagedRuleName name = false) :
    stripManagedRuleMarker (addManagedRuleMarker name) = name := by
  have hadd : addManagedRuleMarker name =
      if name.isEmpty then managedRuleMarker else name ++ spacedTag := by
    rw [addManagedRuleMarker, h, if_neg Bool.false_ne_true]
  cases name with
  | nil => rfl
  | cons b rest =>
      rw [List.isEmpty_cons, if_neg Bool.false_ne_true] at hadd
      rcases exists_of_isManagedRuleName (isManagedRuleName_addManagedRuleMarker (b :: rest)) with
        ⟨hmarker, -⟩ | ⟨base, -, hbase, hstrip⟩
      · -- the marker alone is shorter than a byte and the spaced tag
        have hlength := congrArg List.length (hadd.symm.trans hmarker)
        simp only [List.length_append, List.length_cons] at hlength
        have htag : spacedTag.length = 7 := rfl
        have hshort : managedRuleMarker.length = 6 := rfl
        omega
      · rw [hstrip]
        exact (List.append_cancel_right (hadd.symm.trans hbase)).symm

/-- What is left when the tag comes off is the first characters of a name. -/
theorem exists_take_of_strip (chars : List Char) :
    ∃ k, stripManagedRuleMarker (encode chars) = encode (chars.take k) := by
  cases hmanaged : isManagedRuleName (encode chars) with
  | false =>
      exact ⟨chars.length, by rw [stripManagedRuleMarker_of_unmanaged hmanaged, List.take_length]⟩
  | true =>
      rcases exists_of_isManagedRuleName hmanaged with ⟨-, hstrip⟩ | ⟨base, -, hname, hstrip⟩
      · exact ⟨0, hstrip⟩
      · -- the tag begins with a space, which continues no character
        obtain ⟨k, hk⟩ := exists_take_of_append (show continues 32 = false by decide)
          (show encode chars = base ++ 32 :: managedRuleMarker from hname)
        exact ⟨k, hstrip.trans hk⟩

/-- The tag is characters too, seven at most. -/
theorem exists_encode_addManagedRuleMarker (chars : List Char) :
    ∃ tagged, addManagedRuleMarker (encode chars) = encode tagged ∧
      tagged.length ≤ chars.length + 7 := by
  rw [addManagedRuleMarker]
  split
  · exact ⟨chars, rfl, by omega⟩
  · split
    · exact ⟨_, managedRuleMarker_eq, by
        have hlength : "[Kodi]".toList.length = 6 := rfl
        omega⟩
    · refine ⟨chars ++ " [Kodi]".toList, by rw [encode_append, spacedTag_eq], ?_⟩
      have hlength : " [Kodi]".toList.length = 7 := rfl
      rw [List.length_append]
      omega

/-! ## within the limit -/

/-- A name that is not owned is cut to leave room for the tag. -/
theorem addManagedRuleMarkerBounded_encode {chars : List Char}
    (h : isManagedRuleName (encode chars) = false) :
    addManagedRuleMarkerBounded (encode chars) = addManagedRuleMarker (encode (chars.take 248)) := by
  have hroom : maxRuleNameCharacters - spacedTag.length = 248 := rfl
  rw [addManagedRuleMarkerBounded, h, if_neg Bool.false_ne_true, hroom, takeCodePoints_encode]

/-- **The algebra of the tag**, for a name that is valid and, if it is owned
already, within the limit. -/
theorem managedRuleMarker_algebra {name : ByteString} (hvalid : Valid name)
    (hlimit : isManagedRuleName name = true → codePointCount name ≤ maxRuleNameCharacters) :
    let tagged := addManagedRuleMarkerBounded name
    (Valid tagged ∧ isManagedRuleName tagged = true ∧
      codePointCount tagged ≤ maxRuleNameCharacters) ∧
    (addManagedRuleMarkerBounded tagged = tagged ∧ addManagedRuleMarker tagged = tagged) ∧
    (∀ chars, name = encode chars → ∃ k, stripManagedRuleMarker tagged = encode (chars.take k)) ∧
    (isManagedRuleName name = false → codePointCount name + 7 ≤ maxRuleNameCharacters →
      stripManagedRuleMarker tagged = name) ∧
    (isManagedRuleName name = false → stripManagedRuleMarker name = name) ∧
    (isManagedRuleName name = true ∨ codePointCount name + 7 ≤ maxRuleNameCharacters →
      tagged = addManagedRuleMarker name) := by
  intro tagged
  have hmanaged : isManagedRuleName tagged = true := by
    simp only [tagged, addManagedRuleMarkerBounded]
    split
    · assumption
    · exact isManagedRuleName_addManagedRuleMarker _
  have hbite : isManagedRuleName name = true ∨ codePointCount name + 7 ≤ maxRuleNameCharacters →
      tagged = addManagedRuleMarker name := by
    intro h
    cases hname : isManagedRuleName name with
    | true => simp only [tagged, addManagedRuleMarkerBounded, addManagedRuleMarker, hname, if_true]
    | false =>
        obtain ⟨chars, rfl⟩ := hvalid
        rw [hname, codePointCount_encode, maxRuleNameCharacters] at h
        simp only [tagged]
        rw [addManagedRuleMarkerBounded_encode hname, List.take_of_length_le (by
          rcases h with h | h
          · contradiction
          · omega)]
  refine ⟨⟨?_, hmanaged, ?_⟩, ⟨?_, ?_⟩, ?_, ?_, stripManagedRuleMarker_of_unmanaged, hbite⟩
  · cases hname : isManagedRuleName name with
    | true =>
        simp only [tagged, addManagedRuleMarkerBounded, hname, if_true]
        exact hvalid
    | false =>
        obtain ⟨chars, rfl⟩ := hvalid
        simp only [tagged]
        rw [addManagedRuleMarkerBounded_encode hname]
        obtain ⟨cut, hcut, -⟩ := exists_encode_addManagedRuleMarker (chars.take 248)
        exact ⟨cut, hcut⟩
  · cases hname : isManagedRuleName name with
    | true =>
        simp only [tagged, addManagedRuleMarkerBounded, hname, if_true]
        exact hlimit hname
    | false =>
        obtain ⟨chars, rfl⟩ := hvalid
        simp only [tagged]
        rw [addManagedRuleMarkerBounded_encode hname]
        obtain ⟨cut, hcut, hlength⟩ := exists_encode_addManagedRuleMarker (chars.take 248)
        rw [hcut, codePointCount_encode, maxRuleNameCharacters]
        rw [List.length_take] at hlength
        omega
  · rw [addManagedRuleMarkerBounded, if_pos hmanaged]
  · rw [addManagedRuleMarker, if_pos hmanaged]
  · rintro chars rfl
    cases hname : isManagedRuleName (encode chars) with
    | true =>
        simp only [tagged, addManagedRuleMarkerBounded, hname, if_true]
        exact exists_take_of_strip chars
    | false =>
        simp only [tagged]
        rw [addManagedRuleMarkerBounded_encode hname]
        cases hcut : isManagedRuleName (encode (chars.take 248)) with
        | false => exact ⟨248, stripManagedRuleMarker_addManagedRuleMarker hcut⟩
        | true =>
            -- the cut ended in the tag by chance
            rw [addManagedRuleMarker, if_pos hcut]
            obtain ⟨k, hk⟩ := exists_take_of_strip (chars.take 248)
            exact ⟨min k 248, by rw [hk, List.take_take]⟩
  · intro hunmanaged hfits
    rw [hbite (.inr hfits), stripManagedRuleMarker_addManagedRuleMarker hunmanaged]

/-- A name of two characters, one of them of two bytes. -/
theorem managedRuleMarker_algebra_short :
    let tagged := addManagedRuleMarkerBounded (encode ['T', 'é'])
    codePointCount tagged ≤ maxRuleNameCharacters ∧
      stripManagedRuleMarker tagged = encode ['T', 'é'] :=
  have h := managedRuleMarker_algebra ⟨['T', 'é'], rfl⟩ (fun h => absurd h (by decide))
  ⟨h.1.2.2, h.2.2.2.1 (by decide) (by decide)⟩

end DispatcharrPvr
