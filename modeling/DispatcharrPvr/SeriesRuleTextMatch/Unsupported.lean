import DispatcharrPvr.SeriesRuleTextMatch

/-!
# SeriesRuleTextMatch.Unsupported

When the matcher cannot say: for a regular expression, for a filter that is too
long or has too many groups, and when the work is over its budget, which it
never is as long as every byte of the filter may search the whole text
(`costs_parseExpression`).
-/

namespace DispatcharrPvr

open Cut

/-! ## the work -/

/-- No more than `cost` was spent, if there was as much left. -/
def QueryState.Costs (cost : Nat) (state after : QueryState) : Prop :=
  state.overBudget = false → state.work + cost ≤ maxSeriesMatchWork →
    after.overBudget = false ∧ after.work ≤ state.work + cost

namespace QueryState.Costs

variable {cost cost' : Nat} {state between after : QueryState}

theorem refl (cost : Nat) (state : QueryState) : Costs cost state state :=
  fun hover _ => ⟨hover, Nat.le_add_right _ _⟩

theorem trans (h : Costs cost state between) (h' : Costs cost' between after) :
    Costs (cost + cost') state after := by
  intro hover hfits
  obtain ⟨hbetween, hspent⟩ := h hover (by omega)
  obtain ⟨hafter, hspent'⟩ := h' hbetween (by omega)
  exact ⟨hafter, by omega⟩

theorem mono (h : Costs cost state after) (hle : cost ≤ cost') : Costs cost' state after := by
  intro hover hfits
  obtain ⟨hafter, hspent⟩ := h hover (by omega)
  exact ⟨hafter, by omega⟩

end QueryState.Costs

theorem QueryState.costs_spend (state : QueryState) (units : Nat) :
    Costs units state (state.spend units).2 := by
  intro hover hfits
  unfold spend
  rw [if_neg (by omega)]
  exact ⟨hover, Nat.le_refl _⟩

/-- What a byte of a text costs at most, when a term is looked for. -/
def byteCost (text : ByteString) : Nat := 1 + (seriesMatchCandidateCost + text.length / 16)

/-- What a term costs at most. -/
def searchCost (text : ByteString) : Nat := text.length * byteCost text

namespace TextQuery

variable (query : TextQuery)

/-- From `start` on, every byte is passed over once, and compared with once. -/
theorem costs_findFrom (term : ByteString) (start : Nat) (state : QueryState) :
    QueryState.Costs ((query.foldedText.length - start) * byteCost query.foldedText) state
      (query.findFrom term start state).2 := by
  have hbytes {k : Nat} : k ≤ k * byteCost query.foldedText :=
    Nat.le_mul_of_pos_right k (Nat.add_pos_left Nat.one_pos _)
  by_cases hlt : start < query.foldedText.length
  · rw [findFrom, if_pos hlt]
    split
    · exact (state.costs_spend _).mono hbytes
    · next hit hhit =>
        obtain ⟨hle, hhitlt, -⟩ := findByte_eq_some hhit
        have hscanned := state.costs_spend (hit + 1 - start)
        simp only
        split
        · exact hscanned.mono (Nat.le_trans (by omega) hbytes)
        · next hfits =>
            have hterm : term.length ≤ query.foldedText.length := by
              have := (not_or.mp hfits).2
              omega
            have hcompared := hscanned.trans (QueryState.costs_spend _
              (seriesMatchCandidateCost + term.length / 16))
            -- what is passed over up to the candidate pays for the comparison too
            have hpaid : hit + 1 - start + (seriesMatchCandidateCost + term.length / 16) ≤
                (hit + 1 - start) * byteCost query.foldedText := by
              have hcost : seriesMatchCandidateCost + term.length / 16 ≤
                  (hit + 1 - start) *
                    (seriesMatchCandidateCost + query.foldedText.length / 16) := by
                have hdiv : term.length / 16 ≤ query.foldedText.length / 16 :=
                  Nat.div_le_div_right hterm
                exact Nat.le_trans (Nat.add_le_add_left hdiv _)
                  (Nat.le_mul_of_pos_left _ (by omega))
              rw [byteCost, Nat.mul_add, Nat.mul_one]
              omega
            have hsplit : (query.foldedText.length - start) * byteCost query.foldedText =
                (hit + 1 - start) * byteCost query.foldedText +
                  (query.foldedText.length - (hit + 1)) * byteCost query.foldedText := by
              rw [← Nat.add_mul]
              congr 1
              omega
            rw [hsplit]
            have hspent := hcompared.mono hpaid
            split
            · exact hspent.mono (Nat.le_add_right _ _)
            · split
              · exact hspent.mono (Nat.le_add_right _ _)
              · exact hspent.trans (costs_findFrom term (hit + 1) _)
  · rw [findFrom, if_neg hlt]
    exact .refl _ _
termination_by query.foldedText.length - start
decreasing_by omega

theorem costs_leaf (token : ByteString) (state : QueryState) :
    QueryState.Costs (searchCost query.foldedText) state (query.leaf token state).2 := by
  unfold leaf
  split
  · exact .refl _ _
  simp only
  split
  · exact .refl _ _
  split
  · exact .refl _ _
  · have hfind := query.costs_findFrom (foldCaseForDatabaseMatch query.tables
      (stripUnicodeWhitespace ((query.phrases.lookup token).getD token))) 0 state
    split
    · exact hfind
    · exact hfind

theorem costs_combineOperands (operands : List (Operator × ByteString)) (result : Condition)
    (state : QueryState) :
    QueryState.Costs (operands.length * searchCost query.foldedText) state
      (query.combineOperands operands result state).2 := by
  induction operands generalizing result state with
  | nil => exact .refl _ _
  | cons operand operands ih =>
      obtain ⟨op, token⟩ := operand
      rw [List.length_cons, Nat.succ_mul, Nat.add_comm]
      unfold combineOperands
      split
      · exact (ih result state).mono (Nat.le_add_left _ _)
      · exact (query.costs_leaf token state).trans (ih _ _)

/-- An operand is a byte long at least, with the operator behind it. -/
theorem length_splitOperands_le (expression : ByteString) (start : Nat) :
    (splitOperands expression start).1.length ≤ expression.length - start := by
  by_cases hlt : start < expression.length
  · rw [splitOperands, if_pos hlt]
    split
    · simp only [List.length_singleton]
      omega
    · next position op hfind =>
        obtain ⟨hle, hposition⟩ := findOperator_le hfind
        have hpos := op.length_text_pos
        have hrest := length_splitOperands_le expression (position + op.text.length)
        simp only
        split
        · rw [List.length_cons]
          omega
        · omega
  · rw [splitOperands, if_neg hlt]
    exact Nat.zero_le _
termination_by expression.length - start
decreasing_by omega

theorem costs_parseOperands (expression : ByteString) (state : QueryState) :
    QueryState.Costs (expression.length * searchCost query.foldedText) state
      (query.parseOperands expression state).2 := by
  have hoperands := length_splitOperands_le expression 0
  unfold parseOperands
  split
  · exact .refl _ _
  · next token tokens operators heq =>
      rw [heq, List.length_cons, Nat.sub_zero] at hoperands
      have hzip : (operators.zip tokens).length ≤ tokens.length := by
        rw [List.length_zip]
        exact Nat.min_le_right _ _
      have hall := (query.costs_leaf token state).trans
        (query.costs_combineOperands (operators.zip tokens) (query.leaf token state).1
          (query.leaf token state).2)
      refine hall.mono ?_
      rw [Nat.add_comm, ← Nat.succ_mul]
      exact Nat.mul_le_mul_right _ (by omega)

/-- The parts around a group are no longer than the whole. -/
theorem length_cutGroup {expression before inside after : ByteString}
    (h : cutGroup expression = some (before, inside, after)) :
    before.length + inside.length + after.length ≤ expression.length := by
  unfold cutGroup at h
  cases hopen : cutLast 40 expression with
  | none => simp [hopen] at h
  | some cut =>
      rw [hopen] at h
      obtain ⟨cut', hclose, hparts⟩ := Option.map_eq_some_iff.mp h
      simp only [Prod.mk.injEq] at hparts
      obtain ⟨rfl, rfl, rfl⟩ := hparts
      obtain ⟨rfl, -⟩ := cutLast_eq_some_iff.mp hopen
      obtain ⟨hrest, -⟩ := cutFirst_singleton_eq_some_iff.mp hclose
      rw [hrest]
      simp only [List.length_append, List.length_cons]
      omega

/-- A group and what stands on either side of it. -/
theorem costs_parseGrouped {expression : ByteString}
    (ih : ∀ part : ByteString, part.count 40 < expression.count 40 → ∀ state,
      QueryState.Costs (part.length * searchCost query.foldedText) state
        (query.parseExpression part state).2)
    (state : QueryState) :
    QueryState.Costs (expression.length * searchCost query.foldedText) state
      (query.parseGrouped expression state).2 := by
  rw [parseGrouped]
  cases hcut : cutGroup expression with
  | none => exact .refl _ _
  | some cut =>
      obtain ⟨beforeOpen, inside, afterClose⟩ := cut
      obtain ⟨hbefore, hinside, hafter⟩ := count_cutGroup hcut
      have hbefore := Nat.lt_of_le_of_lt ((operatorBefore_sublist beforeOpen).count_le 40) hbefore
      have hafter := Nat.lt_of_le_of_lt ((operatorAfter_sublist afterClose).count_le 40) hafter
      have hlength := length_cutGroup hcut
      have hbeforeLength := (operatorBefore_sublist beforeOpen).length_le
      have hafterLength := (operatorAfter_sublist afterClose).length_le
      have hgroup := ih inside hinside state
      simp only
      generalize operatorBefore beforeOpen = before at hbefore hbeforeLength ⊢
      generalize operatorAfter afterClose = after at hafter hafterLength ⊢
      generalize query.parseExpression inside state = group at hgroup ⊢
      have hleft : QueryState.Costs ((inside.length + before.1.length) * searchCost query.foldedText) state
          (if before.1 = [] then group
            else (combine (query.parseExpression before.1 group.2).1 group.1 before.2,
              (query.parseExpression before.1 group.2).2)).2 := by
        rw [Nat.add_mul]
        split
        · exact hgroup.mono (Nat.le_add_right _ _)
        · exact hgroup.trans (ih before.1 hbefore group.2)
      have hparts : (inside.length + before.1.length) * searchCost query.foldedText +
          after.1.length * searchCost query.foldedText ≤
            expression.length * searchCost query.foldedText := by
        rw [← Nat.add_mul]
        exact Nat.mul_le_mul_right _ (by omega)
      split
      · exact hleft.mono (Nat.le_trans (Nat.le_add_right _ _) hparts)
      · exact (hleft.trans (ih after.1 hafter _)).mono hparts

/-- **An expression costs a search for each of its bytes at most**, by induction on the
number of its groups. -/
theorem costs_parseExpression (rawExpression : ByteString) (state : QueryState) :
    QueryState.Costs (rawExpression.length * searchCost query.foldedText) state
      (query.parseExpression rawExpression state).2 := by
  induction hgroups : rawExpression.count 40 using Nat.strongRecOn
    generalizing rawExpression state with
  | ind groups ih =>
      subst hgroups
      rw [parseExpression]
      have hcount := (stripUnicodeWhitespace_sublist rawExpression).count_le 40
      have hlength := (stripUnicodeWhitespace_sublist rawExpression).length_le
      split
      · have hgrouped := query.costs_parseGrouped (fun part hfewer state =>
          ih _ (Nat.lt_of_lt_of_le hfewer hcount) part state rfl) state
        exact hgrouped.mono (Nat.mul_le_mul_right _ hlength)
      · exact (query.costs_parseOperands _ state).mono (Nat.mul_le_mul_right _ hlength)

end TextQuery

/-! ## the answer -/

/-- **When the matcher cannot say**: for a regular expression, and but for an exact title,
when the filter is too long, has too many groups, or costs more than its budget. -/
theorem matchSeriesText_eq_unsupported_iff (tables : UnicodeTables) (mode : SeriesTextMode)
    (query text : ByteString) :
    let stripped := stripUnicodeWhitespace query
    let (processed, phrases) := extractQuotedPhrases [] stripped
    let textQuery : TextQuery :=
      ⟨tables, phrases, foldCaseForDatabaseMatch tables text, mode = .search⟩
    matchSeriesText tables mode query text = .unsupported ↔
      stripped ≠ [] ∧ (mode = .regex ∨ mode ≠ .exact ∧
        (stripped.length > maxSeriesQueryBytes ∨ processed.count 40 > maxSeriesQueryGroups ∨
          (textQuery.parseExpression processed {}).2.overBudget = true)) := by
  unfold matchSeriesText
  grind

/-- A filter that is short enough for its text is evaluated. -/
theorem matchSeriesText_ne_unsupported (tables : UnicodeTables) {mode : SeriesTextMode}
    {query text : ByteString} (hmode : mode ≠ .regex)
    (hbytes : (stripUnicodeWhitespace query).length ≤ maxSeriesQueryBytes)
    (hgroups : (extractQuotedPhrases [] (stripUnicodeWhitespace query)).1.count 40 ≤
      maxSeriesQueryGroups)
    (hwork : (extractQuotedPhrases [] (stripUnicodeWhitespace query)).1.length *
      searchCost (foldCaseForDatabaseMatch tables text) ≤ maxSeriesMatchWork) :
    matchSeriesText tables mode query text ≠ .unsupported := by
  intro hunsupported
  obtain ⟨-, hregex | ⟨-, hlong | hmany | hover⟩⟩ :=
    (matchSeriesText_eq_unsupported_iff tables mode query text).mp hunsupported
  · exact hmode hregex
  · omega
  · omega
  · have hcosts := TextQuery.costs_parseExpression
      ⟨tables, (extractQuotedPhrases [] (stripUnicodeWhitespace query)).2,
        foldCaseForDatabaseMatch tables text, mode = .search⟩
      (extractQuotedPhrases [] (stripUnicodeWhitespace query)).1 {} rfl
      (by rwa [Nat.zero_add])
    exact Bool.false_ne_true (hcosts.1.symm.trans hover)

end DispatcharrPvr
