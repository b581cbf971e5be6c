import DispatcharrPvr.SeriesRuleTextMatch

/-!
# SeriesRuleTextMatch.Bounded

What the evaluation of a filter may cost: a parser that has no result when it
recurses deeper than it is allowed to, when an operator of the loop consumes
nothing, or when the work is past its budget as more is charged to it.  The
parser of the source is that one, with one level for each opening parenthesis
and one more (`parser_bounded`).
-/

namespace DispatcharrPvr

/-! ## the bounded parser -/

namespace Bounded

variable (query : TextQuery)

/-- `Spend`; `kMaxSeriesMatchWork - m_work` must not go below zero. -/
def spend (state : QueryState) (units : Nat) : Option (Bool × QueryState) :=
  if maxSeriesMatchWork < state.work then none else some (state.spend units)

/-- `Find`, from `start` on. -/
def findFrom (term : ByteString) (start : Nat) (state : QueryState) :
    Option (Bool × QueryState) :=
  if start < query.foldedText.length then
    match findByte query.foldedText (term.getD 0 0) start with
    | none =>
        (spend state (query.foldedText.length - start)).map fun scanned => (false, scanned.2)
    | some hit =>
        (spend state (hit + 1 - start)).bind fun scanned =>
          if !scanned.1 ∨ term.length > query.foldedText.length - hit then some (false, scanned.2)
          else
            (spend scanned.2 (seriesMatchCandidateCost + term.length / 16)).bind fun compared =>
              if !compared.1 then some (false, compared.2)
              else if query.matchesAt term hit then some (true, compared.2)
              else if start ≤ hit then findFrom term (hit + 1) compared.2
              else none
  else some (false, state)
termination_by query.foldedText.length - start

/-- `Leaf`. -/
def leaf (token : ByteString) (state : QueryState) : Option (Condition × QueryState) :=
  if state.overBudget then some (none, state)
  else
    let term := stripUnicodeWhitespace ((query.phrases.lookup token).getD token)
    if term = [] then some (none, state)
    else
      let foldedTerm := foldCaseForDatabaseMatch query.tables term
      match state.answers.lookup foldedTerm with
      | some found => some (some found, state)
      | none =>
          (findFrom query foldedTerm 0 state).map fun (found, state) =>
            if state.overBudget then (none, state)
            else (some found, { state with answers := (foldedTerm, found) :: state.answers })

/-- The loop over the operators; one has to consume something. -/
def splitOperands (expression : ByteString) (start : Nat) :
    Option (List ByteString × List Operator) :=
  if start < expression.length then
    match findOperator expression start with
    | none => some ([stripUnicodeWhitespace (expression.drop start)], [])
    | some (position, op) =>
        let token := stripUnicodeWhitespace ((expression.drop start).take (position - start))
        if start < position + op.text.length then
          (splitOperands expression (position + op.text.length)).map fun rest =>
            if token ≠ [] then (token :: rest.1, op :: rest.2) else rest
        else none
  else some ([], [])
termination_by expression.length - start

/-- The operands behind the first, left to right. -/
def combineOperands : List (Operator × ByteString) → Condition → QueryState →
    Option (Condition × QueryState)
  | [], result, state => some (result, state)
  | (op, token) :: operands, result, state =>
      if result = some (op == .or) then combineOperands operands result state
      else
        (leaf query token state).bind fun (operand, state) =>
          combineOperands operands (combine result operand op) state

/-- `ParseExpression` without a group. -/
def parseOperands (expression : ByteString) (state : QueryState) :
    Option (Condition × QueryState) :=
  (splitOperands expression 0).bind fun
    | ([], _) => some (none, state)
    | (token :: tokens, operators) =>
        (leaf query token state).bind fun (result, state) =>
          combineOperands query (operators.zip tokens) result state

/-- `ParseGrouped`, given the `ParseExpression` it may still call. -/
def parseGroupedWith (parse : ByteString → QueryState → Option (Condition × QueryState))
    (expression : ByteString) (state : QueryState) : Option (Condition × QueryState) :=
  match cutGroup expression with
  | none => some (none, state)
  | some (beforeOpen, inside, afterClose) =>
      (parse inside state).bind fun group =>
        let before := operatorBefore beforeOpen
        let after := operatorAfter afterClose
        let left :=
          if before.1 = [] then some group
          else
            (parse before.1 group.2).map fun operand =>
              (combine operand.1 group.1 before.2, operand.2)
        left.bind fun left =>
          if after.1 = [] then some left
          else
            (parse after.1 left.2).map fun operand =>
              (combine left.1 operand.1 after.2, operand.2)

/-- `ParseExpression`, at most `depth` of its calls open at a time. -/
def parseExpression : Nat → ByteString → QueryState → Option (Condition × QueryState)
  | 0, _, _ => none
  | depth + 1, rawExpression, state =>
      let expression := stripUnicodeWhitespace rawExpression
      if 40 ∈ expression then parseGroupedWith (parseExpression depth) expression state
      else parseOperands query expression state

/-- `ParseGrouped`, at most `depth` calls of `ParseExpression` open under it. -/
def parseGrouped (depth : Nat) : ByteString → QueryState → Option (Condition × QueryState) :=
  parseGroupedWith (parseExpression query depth)

end Bounded

/-! ## the work -/

/-- The work done is within its budget. -/
def QueryState.Within (state : QueryState) : Prop := state.work ≤ maxSeriesMatchWork

/-- A bounded computation has a result, and the work stays within its budget. -/
def Stays {α : Type*} (bounded : Option (α × QueryState)) (result : α × QueryState) : Prop :=
  bounded = some result ∧ result.2.Within

section Work

variable {query : TextQuery} {state : QueryState}

theorem spend_stays (h : state.Within) (units : Nat) :
    Stays (Bounded.spend state units) (state.spend units) := by
  refine ⟨if_neg (Nat.not_lt.mpr h), ?_⟩
  unfold QueryState.spend QueryState.Within at *
  split
  · exact h
  · simp only
    omega

theorem TextQuery.findFrom_of_lt {term : ByteString} {start : Nat}
    (hlt : start < query.foldedText.length) :
    query.findFrom term start state =
      match findByte query.foldedText (term.getD 0 0) start with
      | none => (false, (state.spend (query.foldedText.length - start)).2)
      | some hit =>
          let scanned := state.spend (hit + 1 - start)
          if !scanned.1 ∨ term.length > query.foldedText.length - hit then (false, scanned.2)
          else
            let compared := scanned.2.spend (seriesMatchCandidateCost + term.length / 16)
            if !compared.1 then (false, compared.2)
            else if query.matchesAt term hit then (true, compared.2)
            else query.findFrom term (hit + 1) compared.2 := by
  rw [TextQuery.findFrom, if_pos hlt]
  split <;> rename_i hfind <;> simp only [hfind]

theorem findFrom_stays (query : TextQuery) (term : ByteString) (start : Nat) {state : QueryState}
    (h : state.Within) :
    Stays (Bounded.findFrom query term start state) (query.findFrom term start state) := by
  by_cases hlt : start < query.foldedText.length
  · rw [Bounded.findFrom, TextQuery.findFrom_of_lt hlt, if_pos hlt]
    cases hfind : findByte query.foldedText (term.getD 0 0) start with
    | none =>
        obtain ⟨hspend, hwithin⟩ := spend_stays h (query.foldedText.length - start)
        simp only [hspend]
        exact ⟨rfl, hwithin⟩
    | some hit =>
        obtain ⟨hspend, hscanned⟩ := spend_stays h (hit + 1 - start)
        simp only [hspend, Option.bind_some]
        split
        · exact ⟨rfl, hscanned⟩
        obtain ⟨hspend, hcompared⟩ :=
          spend_stays hscanned (seriesMatchCandidateCost + term.length / 16)
        simp only [hspend, Option.bind_some]
        split
        · exact ⟨rfl, hcompared⟩
        split
        · exact ⟨rfl, hcompared⟩
        obtain ⟨hle, hbefore, -⟩ := findByte_eq_some hfind
        rw [if_pos hle]
        exact findFrom_stays query term (hit + 1) hcompared
  · rw [Bounded.findFrom, TextQuery.findFrom, if_neg hlt, if_neg hlt]
    exact ⟨rfl, h⟩
termination_by query.foldedText.length - start

theorem leaf_stays (query : TextQuery) (token : ByteString) (h : state.Within) :
    Stays (Bounded.leaf query token state) (query.leaf token state) := by
  unfold Bounded.leaf TextQuery.leaf
  split
  · exact ⟨rfl, h⟩
  generalize stripUnicodeWhitespace ((query.phrases.lookup token).getD token) = term
  dsimp only
  split
  · exact ⟨rfl, h⟩
  generalize foldCaseForDatabaseMatch query.tables term = foldedTerm
  cases state.answers.lookup foldedTerm with
  | some found => exact ⟨rfl, h⟩
  | none =>
      obtain ⟨hfind, hwithin⟩ := findFrom_stays query foldedTerm 0 h
      simp only [hfind, Option.map_some]
      split
      · exact ⟨rfl, hwithin⟩
      · exact ⟨rfl, hwithin⟩

end Work

/-! ## the parser -/

section Parser

variable {query : TextQuery} {state : QueryState}

theorem splitOperands_of_lt {expression : ByteString} {start : Nat}
    (hlt : start < expression.length) :
    splitOperands expression start =
      match findOperator expression start with
      | none => ([stripUnicodeWhitespace (expression.drop start)], [])
      | some (position, op) =>
          let token := stripUnicodeWhitespace ((expression.drop start).take (position - start))
          let rest := splitOperands expression (position + op.text.length)
          if token ≠ [] then (token :: rest.1, op :: rest.2) else rest := by
  rw [splitOperands, if_pos hlt]
  split <;> rename_i hfind <;> simp only [hfind]

/-- Every operator of the loop consumes something. -/
theorem splitOperands_bounded (expression : ByteString) (start : Nat) :
    Bounded.splitOperands expression start = some (splitOperands expression start) := by
  by_cases hlt : start < expression.length
  · rw [Bounded.splitOperands, splitOperands_of_lt hlt, if_pos hlt]
    cases hfind : findOperator expression start with
    | none => rfl
    | some found =>
        obtain ⟨position, op⟩ := found
        obtain ⟨hle, -⟩ := findOperator_le hfind
        have hpos := op.length_text_pos
        have hconsumes : start < position + op.text.length := by omega
        simp only [hconsumes, if_true, splitOperands_bounded expression (position + op.text.length),
          Option.map_some]
  · rw [Bounded.splitOperands, splitOperands, if_neg hlt, if_neg hlt]
termination_by expression.length - start

theorem combineOperands_stays (operands : List (Operator × ByteString)) (result : Condition)
    (h : state.Within) :
    Stays (Bounded.combineOperands query operands result state)
      (query.combineOperands operands result state) := by
  induction operands generalizing result state with
  | nil => exact ⟨rfl, h⟩
  | cons operand operands ih =>
      obtain ⟨op, token⟩ := operand
      unfold Bounded.combineOperands TextQuery.combineOperands
      split
      · exact ih result h
      · obtain ⟨hleaf, hwithin⟩ := leaf_stays query token h
        rw [hleaf, Option.bind_some]
        exact ih _ hwithin

theorem parseOperands_stays (expression : ByteString) (h : state.Within) :
    Stays (Bounded.parseOperands query expression state)
      (query.parseOperands expression state) := by
  unfold Bounded.parseOperands TextQuery.parseOperands
  rw [splitOperands_bounded, Option.bind_some]
  obtain ⟨tokens, operators⟩ := splitOperands expression 0
  cases tokens with
  | nil => exact ⟨rfl, h⟩
  | cons token tokens =>
      obtain ⟨hleaf, hwithin⟩ := leaf_stays query token h
      simp only [hleaf, Option.bind_some]
      exact combineOperands_stays _ _ hwithin

/-- One side of a group, combined with what is there so far. -/
theorem side_stays {parse : ByteString → QueryState → Option (Condition × QueryState)}
    {part : ByteString} {soFar : Condition × QueryState} (combined : Condition → Condition)
    (h : soFar.2.Within)
    (hparse : Stays (parse part soFar.2) (query.parseExpression part soFar.2)) :
    Stays
      (if part = [] then some soFar
        else (parse part soFar.2).map fun operand => (combined operand.1, operand.2))
      (if part = [] then soFar
        else
          let operand := query.parseExpression part soFar.2
          (combined operand.1, operand.2)) := by
  obtain ⟨hpart, hwithin⟩ := hparse
  split
  · exact ⟨rfl, h⟩
  · rw [hpart]
    exact ⟨rfl, hwithin⟩

/-- A group stays when what it recurses on does. -/
theorem parseGrouped_stays {parse : ByteString → QueryState → Option (Condition × QueryState)}
    (expression : ByteString) (h : state.Within)
    (hparse : ∀ part, part.count 40 < expression.count 40 → ∀ state : QueryState, state.Within →
      Stays (parse part state) (query.parseExpression part state)) :
    Stays (Bounded.parseGroupedWith parse expression state)
      (query.parseGrouped expression state) := by
  rw [TextQuery.parseGrouped, Bounded.parseGroupedWith]
  cases hcut : cutGroup expression with
  | none => exact ⟨rfl, h⟩
  | some cut =>
      obtain ⟨beforeOpen, inside, afterClose⟩ := cut
      obtain ⟨hbefore, hinside, hafter⟩ := count_cutGroup hcut
      have hleft := (operatorBefore_sublist beforeOpen).count_le 40
      have hright := (operatorAfter_sublist afterClose).count_le 40
      obtain ⟨hgroup, hwithin⟩ := hparse inside hinside state h
      obtain ⟨heq, hwithin⟩ := side_stays
        (fun operand =>
          combine operand (query.parseExpression inside state).1 (operatorBefore beforeOpen).2)
        hwithin (hparse (operatorBefore beforeOpen).1 (by omega) _ hwithin)
      dsimp only
      rw [hgroup, Option.bind_some, heq, Option.bind_some]
      exact side_stays (fun operand => combine _ operand (operatorAfter afterClose).2) hwithin
        (hparse (operatorAfter afterClose).1 (by omega) _ hwithin)

/-- A level for each opening parenthesis, and one more. -/
theorem parseExpression_stays (query : TextQuery) {depth : Nat} {rawExpression : ByteString}
    (hdepth : rawExpression.count 40 < depth) (h : state.Within) :
    Stays (Bounded.parseExpression query depth rawExpression state)
      (query.parseExpression rawExpression state) := by
  induction depth generalizing rawExpression state with
  | zero => omega
  | succ depth ih =>
      have hcount := (stripUnicodeWhitespace_sublist rawExpression).count_le 40
      rw [Bounded.parseExpression, TextQuery.parseExpression]
      split
      · refine parseGrouped_stays _ h fun part hpart state hstate => ?_
        exact ih (by omega) hstate
      · exact parseOperands_stays _ h

end Parser

theorem QueryState.within_empty : ({} : QueryState).Within := Nat.zero_le _

/-- **The parser is bounded**: on any text it returns with a level of recursion
for each opening parenthesis and one more, and it never charges to work that is
past its budget. -/
theorem parser_bounded (query : TextQuery) (text : ByteString) :
    Bounded.parseExpression query (text.count 40 + 1) text {} =
        some (query.parseExpression text {}) ∧
      Bounded.parseGrouped query (text.count 40) text {} = some (query.parseGrouped text {}) ∧
      (query.parseExpression text {}).2.work ≤ maxSeriesMatchWork := by
  have hexpression := parseExpression_stays query (Nat.lt_succ_self (text.count 40))
    QueryState.within_empty
  have hgrouped : Stays (Bounded.parseGrouped query (text.count 40) text {})
      (query.parseGrouped text {}) :=
    parseGrouped_stays text QueryState.within_empty fun part hpart state hstate =>
      parseExpression_stays query hpart hstate
  exact ⟨hexpression.1, hgrouped.1, hexpression.2⟩

/-- A query that the matcher evaluates is parsed within one level more than it
may have groups. -/
theorem parseExpression_maxSeriesQueryGroups (query : TextQuery) {processed : ByteString}
    (h : processed.count 40 ≤ maxSeriesQueryGroups) :
    Bounded.parseExpression query (maxSeriesQueryGroups + 1) processed {} =
      some (query.parseExpression processed {}) :=
  (parseExpression_stays query (Nat.lt_succ_of_le h) QueryState.within_empty).1

end DispatcharrPvr
