import DispatcharrPvr.ServerOffsetCrossCheck.Tracker

/-!
# ServerOffsetCrossCheck.Order

What the cross-check reads off its samples.  A time of day fixes the server's
offset to the minute (`impliedOffsetMinutes_secondsOfDay`), and the verdict
depends on which samples there are, not on their order or on how often each is
there: it is what the samples agree and disagree on (`CrossCheck.Sums`).
-/

namespace DispatcharrPvr

/-! ## the offset of one sample -/

/-- The local seconds since midnight a rule stores for a local time. -/
def secondsOfDay (localTime : Int) : Int := localTime % 86400

/-- Less than half a day from the expected offset, up to half a minute of
seconds is rounded away. -/
theorem impliedOffsetMinutes_secondsOfDay {t near T e : Int} (hnear : -720 < T - near)
    (hnear' : T - near < 720) (he : -30 ≤ e) (he' : e ≤ 29) :
    impliedOffsetMinutes (secondsOfDay (t + 60 * T + e)) t near = T := by
  have hday : (86400 : Int).tdiv 2 = 43200 := rfl
  have hbounds := TruncDiv.tmod_bounds
    (a := secondsOfDay (t + 60 * T + e) - t % 86400 - near * 60) (m := 86400) (by decide)
  have hmod := Int.tmod_def (secondsOfDay (t + 60 * T + e) - t % 86400 - near * 60) 86400
  simp only [impliedOffsetMinutes, TruncDiv.floorMod_eq_emod (show (0 : Int) < 86400 by decide),
    TruncDiv.floorDiv_eq_ediv (show (0 : Int) < 60 by decide), hday]
  generalize hdelta : (secondsOfDay (t + 60 * T + e) - t % 86400 - near * 60).tmod 86400 = delta
    at hbounds hmod ⊢
  generalize (secondsOfDay (t + 60 * T + e) - t % 86400 - near * 60).tdiv 86400 = days at hmod
  -- both times come from one instant, so the days between them drop out
  have hfold : (if delta > 43200 then delta - 86400
      else if delta ≤ -43200 then delta + 86400 else delta) = 60 * (T - near) + e := by
    unfold secondsOfDay at hmod
    split
    · omega
    · split <;> omega
  rw [hfold]
  omega

/-! ## the verdict -/

/-- What a sample says the server's offset is, against which table offset. -/
def impliedAt (table : Int → Option Int) (sample : OffsetSample) : Option (Int × Int) :=
  (tableOffsetAt table sample).map fun tableOffset =>
    (impliedOffsetMinutes sample.ruleStartTimeOfDaySeconds sample.occurrenceStartUtc tableOffset,
      tableOffset)

/-- A sample at which the table is right about the offset `o`. -/
def AgreesOn (table : Int → Option Int) (samples : List OffsetSample) (o : Int) : Prop :=
  ∃ sample ∈ samples, impliedAt table sample = some (o, o)

/-- A sample at which the server plausibly has another offset than the table's. -/
def DisagreesOn (table : Int → Option Int) (samples : List OffsetSample)
    (pair : Int × Int) : Prop :=
  pair.1 ≠ pair.2 ∧ (pair.1 - pair.2).natAbs ≤ maxPlausibleOffsetDeltaMinutes ∧
    ∃ sample ∈ samples, impliedAt table sample = some pair

/-- What the locals of the loop say about the samples so far. -/
structure CrossCheck.Sums (table : Int → Option Int) (samples : List OffsetSample)
    (st : CrossCheck) : Prop where
  agrees_iff : st.agrees = true ↔ ∃ o, AgreesOn table samples o
  mem_iff : ∀ o, o ∈ st.agreeingOffsets ↔ AgreesOn table samples o
  have_iff : st.haveDisagreement = true ↔ ∃ pair, DisagreesOn table samples pair
  first : st.haveDisagreement = true →
    DisagreesOn table samples (st.disagreement, st.disagreementTableOffset)
  consistent_iff : st.disagreementConsistent = true ↔
    ∀ pair, DisagreesOn table samples pair → pair = (st.disagreement, st.disagreementTableOffset)

theorem agreesOn_concat {table : Int → Option Int} {samples : List OffsetSample}
    {sample : OffsetSample} {o : Int} :
    AgreesOn table (samples ++ [sample]) o ↔
      AgreesOn table samples o ∨ impliedAt table sample = some (o, o) := by
  simp [AgreesOn, or_and_right, exists_or]

theorem disagreesOn_concat {table : Int → Option Int} {samples : List OffsetSample}
    {sample : OffsetSample} {pair : Int × Int} :
    DisagreesOn table (samples ++ [sample]) pair ↔
      DisagreesOn table samples pair ∨ (pair.1 ≠ pair.2 ∧
        (pair.1 - pair.2).natAbs ≤ maxPlausibleOffsetDeltaMinutes ∧
        impliedAt table sample = some pair) := by
  simp only [DisagreesOn, List.mem_append, List.mem_singleton, or_and_right, exists_or,
    exists_eq_left, ← and_or_left]

/-- A sample that says nothing new about either leaves the locals right. -/
theorem CrossCheck.Sums.skip {table : Int → Option Int} {samples : List OffsetSample}
    {st : CrossCheck} {sample : OffsetSample} (hsums : st.Sums table samples)
    (hagrees : ∀ o, impliedAt table sample = some (o, o) → AgreesOn table samples o)
    (hdisagrees : ∀ pair, DisagreesOn table (samples ++ [sample]) pair →
      DisagreesOn table samples pair) :
    st.Sums table (samples ++ [sample]) := by
  have hagreesOn : ∀ o, AgreesOn table (samples ++ [sample]) o ↔ AgreesOn table samples o := by
    intro o
    rw [agreesOn_concat]
    exact ⟨fun h => h.elim id (hagrees o), .inl⟩
  have hdisagreesOn : ∀ pair, DisagreesOn table (samples ++ [sample]) pair ↔
      DisagreesOn table samples pair :=
    fun pair => ⟨hdisagrees pair, fun h => disagreesOn_concat.mpr (.inl h)⟩
  constructor
  · simp only [hagreesOn, hsums.agrees_iff]
  · simp only [hagreesOn, hsums.mem_iff, implies_true]
  · simp only [hdisagreesOn, hsums.have_iff]
  · simpa only [hdisagreesOn] using hsums.first
  · simpa only [hdisagreesOn] using hsums.consistent_iff

section Look

variable {table : Int → Option Int} {samples : List OffsetSample} {st : CrossCheck}
  {sample : OffsetSample} {implied tableOffset : Int}

/-- A sample that agrees adds its offset. -/
theorem CrossCheck.Sums.agreed (hsums : st.Sums table samples)
    (hsome : impliedAt table sample = some (tableOffset, tableOffset)) :
    CrossCheck.Sums table (samples ++ [sample]) { st with
      agrees := true
      agreeingOffsets :=
        if tableOffset ∈ st.agreeingOffsets then st.agreeingOffsets
        else st.agreeingOffsets ++ [tableOffset] } := by
  have hagreesOn : ∀ o, AgreesOn table (samples ++ [sample]) o ↔
      AgreesOn table samples o ∨ tableOffset = o := by
    intro o
    rw [agreesOn_concat, hsome]
    simp
  have hdisagreesOn : ∀ pair, DisagreesOn table (samples ++ [sample]) pair ↔
      DisagreesOn table samples pair := by
    intro pair
    rw [disagreesOn_concat, hsome, Option.some.injEq]
    grind
  constructor
  · simp only [hagreesOn, true_iff]
    exact ⟨tableOffset, .inr rfl⟩
  · intro o
    rw [hagreesOn, ← hsums.mem_iff o]
    by_cases hmem : tableOffset ∈ st.agreeingOffsets <;> grind
  · simp only [hdisagreesOn, hsums.have_iff]
  · simpa only [hdisagreesOn] using hsums.first
  · simpa only [hdisagreesOn] using hsums.consistent_iff

section Disagrees

variable (hsums : st.Sums table samples)
  (hsome : impliedAt table sample = some (implied, tableOffset)) (hne : implied ≠ tableOffset)

include hsome hne

variable (samples) in
/-- A sample that does not agree leaves the offsets agreed on. -/
theorem agreesOn_concat_of_ne (o : Int) :
    AgreesOn table (samples ++ [sample]) o ↔ AgreesOn table samples o := by
  rw [agreesOn_concat, hsome, Option.some.injEq, Prod.mk.injEq]
  exact ⟨fun h => h.elim id fun ho => absurd (ho.1.trans ho.2.symm) hne, .inl⟩

variable (samples) in
/-- A plausible disagreement is one more. -/
theorem disagreesOn_concat_of_near
    (hnear : ¬ (implied - tableOffset).natAbs > maxPlausibleOffsetDeltaMinutes)
    (pair : Int × Int) :
    DisagreesOn table (samples ++ [sample]) pair ↔
      DisagreesOn table samples pair ∨ (implied, tableOffset) = pair := by
  rw [disagreesOn_concat, hsome, Option.some.injEq]
  grind

include hsums

/-- A sample that disagrees and adds no disagreement changes nothing. -/
theorem CrossCheck.Sums.disagreed (hdisagrees : ∀ pair,
    DisagreesOn table (samples ++ [sample]) pair → DisagreesOn table samples pair) :
    st.Sums table (samples ++ [sample]) :=
  hsums.skip (fun o ho => (agreesOn_concat_of_ne samples hsome hne o).mp (agreesOn_concat.mpr (.inr ho)))
    hdisagrees

variable (hnear : ¬ (implied - tableOffset).natAbs > maxPlausibleOffsetDeltaMinutes)

include hnear

/-- The first disagreement is noted. -/
theorem CrossCheck.Sums.disagreed_first (hhave : st.haveDisagreement ≠ true) :
    CrossCheck.Sums table (samples ++ [sample]) { st with
      haveDisagreement := true
      disagreement := implied
      disagreementTableOffset := tableOffset } := by
  have hagreesOn := agreesOn_concat_of_ne samples hsome hne
  have hdisagreesOn := disagreesOn_concat_of_near samples hsome hne hnear
  have hnever : ∀ pair, ¬ DisagreesOn table samples pair := by
    intro pair hpair
    exact hhave (hsums.have_iff.mpr ⟨pair, hpair⟩)
  have hstill : st.disagreementConsistent = true :=
    hsums.consistent_iff.mpr fun pair hpair => absurd hpair (hnever pair)
  constructor
  · simp only [hagreesOn, hsums.agrees_iff]
  · simp only [hagreesOn, hsums.mem_iff, implies_true]
  · simp only [hdisagreesOn, true_iff]
    exact ⟨_, .inr rfl⟩
  · intro _
    exact (hdisagreesOn _).mpr (.inr rfl)
  · simp only [hstill, true_iff, hdisagreesOn]
    intro pair hpair
    exact (hpair.resolve_left (hnever pair)).symm

/-- Another one shows that the samples contradict each other. -/
theorem CrossCheck.Sums.disagreed_otherwise (hhave : st.haveDisagreement = true)
    (hdiffers : st.disagreement ≠ implied ∨ st.disagreementTableOffset ≠ tableOffset) :
    CrossCheck.Sums table (samples ++ [sample]) { st with disagreementConsistent := false } := by
  have hagreesOn := agreesOn_concat_of_ne samples hsome hne
  have hdisagreesOn := disagreesOn_concat_of_near samples hsome hne hnear
  constructor
  · simp only [hagreesOn, hsums.agrees_iff]
  · simp only [hagreesOn, hsums.mem_iff, implies_true]
  · simp only [hdisagreesOn, hhave, true_iff]
    exact ⟨_, .inr rfl⟩
  · intro _
    exact (hdisagreesOn _).mpr (.inl (hsums.first hhave))
  · simp only [Bool.false_eq_true, false_iff]
    intro hall
    have heq := hall _ ((hdisagreesOn _).mpr (.inr rfl))
    grind

end Disagrees

/-- One turn of the loop. -/
theorem CrossCheck.Sums.look (hsums : st.Sums table samples) (sample : OffsetSample) :
    (st.look table sample).Sums table (samples ++ [sample]) := by
  unfold CrossCheck.look
  cases htable : tableOffsetAt table sample with
  | none =>
      have hnone : impliedAt table sample = none := by rw [impliedAt, htable]; rfl
      exact hsums.skip (by simp [hnone]) (by simp [disagreesOn_concat, hnone])
  | some tableOffset =>
      simp only
      generalize himplied : impliedOffsetMinutes sample.ruleStartTimeOfDaySeconds
        sample.occurrenceStartUtc tableOffset = implied
      have hsome : impliedAt table sample = some (implied, tableOffset) := by
        rw [impliedAt, htable, Option.map_some, himplied]
      by_cases hagree : implied = tableOffset
      · rw [if_pos hagree]
        exact hsums.agreed (hagree ▸ hsome)
      · rw [if_neg hagree]
        by_cases hfar : (implied - tableOffset).natAbs > maxPlausibleOffsetDeltaMinutes
        · rw [if_pos hfar]
          refine hsums.disagreed hsome hagree fun pair hpair => ?_
          rw [disagreesOn_concat, hsome, Option.some.injEq] at hpair
          grind
        · rw [if_neg hfar]
          by_cases hhave : st.haveDisagreement = true
          · rw [hhave, Bool.not_true, if_neg Bool.false_ne_true]
            by_cases hdiffers : st.disagreement ≠ implied ∨
                st.disagreementTableOffset ≠ tableOffset
            · rw [if_pos hdiffers, ← hhave]
              exact hsums.disagreed_otherwise hsome hagree hfar hhave hdiffers
            · rw [if_neg hdiffers]
              refine hsums.disagreed hsome hagree fun pair hpair => ?_
              have hsame : (st.disagreement, st.disagreementTableOffset) =
                  (implied, tableOffset) := by grind
              exact ((disagreesOn_concat_of_near samples hsome hagree hfar pair).mp hpair).elim id
                fun h => h ▸ hsame ▸ hsums.first hhave
          · rw [if_pos (by simpa using hhave)]
            exact hsums.disagreed_first hsome hagree hfar hhave

end Look

theorem CrossCheck.sums_foldl (table : Int → Option Int) (samples : List OffsetSample) :
    (samples.foldl (CrossCheck.look table) {}).Sums table samples := by
  induction samples using List.reverseRecOn with
  | nil => constructor <;> simp [AgreesOn, DisagreesOn]
  | append_singleton samples sample ih =>
      rw [List.foldl_append, List.foldl_cons, List.foldl_nil]
      exact ih.look sample

/-- Two verdicts with the same agreeing table offsets, in whatever order. -/
structure ServerOffsetVerdict.Same (a b : ServerOffsetVerdict) : Prop where
  kind : a.kind = b.kind
  implied : a.impliedOffsetMinutes = b.impliedOffsetMinutes
  table : a.tableOffsetMinutes = b.tableOffsetMinutes
  agreeing : ∀ o, o ∈ a.agreeingTableOffsets ↔ o ∈ b.agreeingTableOffsets

/-- The verdict is about which samples there are. -/
theorem crossCheckServerOffset_same {table : Int → Option Int} {samples others : List OffsetSample}
    (h : ∀ sample, sample ∈ samples ↔ sample ∈ others) :
    (crossCheckServerOffset table samples).Same (crossCheckServerOffset table others) := by
  have hagrees : ∀ o, AgreesOn table samples o ↔ AgreesOn table others o := by
    simp [AgreesOn, h]
  have hdisagrees : ∀ pair, DisagreesOn table samples pair ↔ DisagreesOn table others pair := by
    simp [DisagreesOn, h]
  have hsums := CrossCheck.sums_foldl table samples
  have hsums' := CrossCheck.sums_foldl table others
  unfold crossCheckServerOffset
  generalize samples.foldl (CrossCheck.look table) {} = st at hsums
  generalize others.foldl (CrossCheck.look table) {} = st' at hsums'
  have hsameAgrees : st.agrees = st'.agrees := by
    rw [Bool.eq_iff_iff, hsums.agrees_iff, hsums'.agrees_iff]
    simp only [hagrees]
  have hsameHave : st.haveDisagreement = st'.haveDisagreement := by
    rw [Bool.eq_iff_iff, hsums.have_iff, hsums'.have_iff]
    simp only [hdisagrees]
  have hoffsets : ∀ o, o ∈ st.agreeingOffsets ↔ o ∈ st'.agreeingOffsets := by
    intro o
    rw [hsums.mem_iff, hsums'.mem_iff, hagrees]
  simp only [hsameAgrees, hsameHave]
  by_cases hagree : st'.agrees = true
  · simp only [hagree, if_true]
    exact ⟨rfl, rfl, rfl, hoffsets⟩
  · simp only [hagree]
    by_cases hhave : st'.haveDisagreement = true
    · -- each first disagreement is one of the other list's, so consistency is the same
      have hfirst := (hdisagrees _).mp (hsums.first (hsameHave.trans hhave))
      have hfirst' := (hdisagrees _).mpr (hsums'.first hhave)
      have hsameConsistent : st.disagreementConsistent = st'.disagreementConsistent := by
        rw [Bool.eq_iff_iff, hsums.consistent_iff, hsums'.consistent_iff]
        constructor
        · intro hall pair hpair
          rw [hall pair ((hdisagrees pair).mpr hpair), hall _ hfirst']
        · intro hall pair hpair
          rw [hall pair ((hdisagrees pair).mp hpair), hall _ hfirst]
      simp only [hhave, Bool.true_and, hsameConsistent]
      by_cases hconsistent : st'.disagreementConsistent = true
      · have hsame := hsums'.consistent_iff.mp hconsistent _ hfirst
        obtain ⟨himplied, htable⟩ := Prod.mk.inj hsame
        simp only [hconsistent, if_true, himplied, htable]
        exact ⟨rfl, rfl, rfl, fun _ => Iff.rfl⟩
      · simp only [hconsistent]
        exact ⟨rfl, rfl, rfl, fun _ => Iff.rfl⟩
    · simp only [hhave, Bool.false_and]
      exact ⟨rfl, rfl, rfl, fun _ => Iff.rfl⟩

/-! ## the two together -/

/-- The offset is recovered from the time of day, and the verdict is the same
for every order of the samples and however often each is there. -/
theorem serverOffset_crossCheck :
    (∀ t near T e : Int, (T - near).natAbs < 12 * 60 → -30 ≤ e → e ≤ 29 →
      impliedOffsetMinutes (secondsOfDay (t + 60 * T + e)) t near = T) ∧
    (∀ (table : Int → Option Int) (samples others : List OffsetSample), samples.Perm others →
      (crossCheckServerOffset table samples).Same (crossCheckServerOffset table others)) ∧
    ∀ (table : Int → Option Int) (samples repeated : List OffsetSample),
      repeated ⊆ samples → samples ⊆ repeated →
      (crossCheckServerOffset table samples).Same (crossCheckServerOffset table repeated) := by
  refine ⟨?_, ?_, ?_⟩
  · intro t near T e hnear he he'
    exact impliedOffsetMinutes_secondsOfDay (by omega) (by omega) he he'
  · intro table samples others hperm
    exact crossCheckServerOffset_same fun sample => hperm.mem_iff
  · intro table samples repeated hsub hsub'
    exact crossCheckServerOffset_same fun sample => ⟨fun h => hsub' h, fun h => hsub h⟩

/-- A rule at half past seven in the evening and an occurrence at half past
ten in the morning: nine hours east. -/
theorem serverOffset_crossCheck_tokyo :
    impliedOffsetMinutes (secondsOfDay (1760005800 + 60 * 540 + -30)) 1760005800 480 = 540 ∧
      (crossCheckServerOffset (fun _ => some 480)
        [⟨70200, 1760005800⟩, ⟨66600, 1760005800⟩]).Same
      (crossCheckServerOffset (fun _ => some 480)
        [⟨66600, 1760005800⟩, ⟨70200, 1760005800⟩]) ∧
      (crossCheckServerOffset (fun _ => some 480) [⟨70200, 1760005800⟩]).Same
      (crossCheckServerOffset (fun _ => some 480)
        [⟨70200, 1760005800⟩, ⟨70200, 1760005800⟩]) :=
  ⟨serverOffset_crossCheck.1 1760005800 480 540 (-30) (by decide) (by decide) (by decide),
    serverOffset_crossCheck.2.1 _ _ _ (List.Perm.swap _ _ _),
    serverOffset_crossCheck.2.2 _ _ _ (by simp) (by simp)⟩

end DispatcharrPvr
