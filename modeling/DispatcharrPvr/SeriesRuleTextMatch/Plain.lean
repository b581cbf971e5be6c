import DispatcharrPvr.Lib.Memo
import DispatcharrPvr.SeriesRuleTextMatch

/-!
# SeriesRuleTextMatch.Plain

The filter evaluated in the plainest way: the rest of the expression is cut off
again at every operator, every operand counts, every term is looked for afresh
at every position of the text.  The matcher says the same, or that it cannot
say.
-/

namespace DispatcharrPvr

open Cut Memo

/-! ## the plain evaluation -/

/-- The first operator: what stands before it, and what after. -/
def cutOperator : ByteString → Option (ByteString × Operator × ByteString)
  | [] => none
  | b :: s =>
      if startsWithAsciiCaseInsensitive (b :: s) Operator.and.text then
        some ([], .and, (b :: s).drop Operator.and.text.length)
      else if startsWithAsciiCaseInsensitive (b :: s) Operator.or.text then
        some ([], .or, (b :: s).drop Operator.or.text.length)
      else (cutOperator s).map fun cut => (b :: cut.1, cut.2)

theorem length_cutOperator {expression before after : ByteString} {op : Operator}
    (h : cutOperator expression = some (before, op, after)) :
    after.length < expression.length := by
  induction expression generalizing before with
  | nil => contradiction
  | cons b s ih =>
      have hpos (op : Operator) :
          ((b :: s).drop op.text.length).length < (b :: s).length := by
        have hlength := op.length_text_pos
        rw [List.length_drop, List.length_cons]
        omega
      unfold cutOperator at h
      split at h
      · obtain ⟨-, rfl, rfl⟩ := by simpa only [Option.some.injEq, Prod.mk.injEq] using h
        exact hpos .and
      · split at h
        · obtain ⟨-, rfl, rfl⟩ := by simpa only [Option.some.injEq, Prod.mk.injEq] using h
          exact hpos .or
        · obtain ⟨⟨_, _, _⟩, hcut, heq⟩ := Option.map_eq_some_iff.mp h
          obtain ⟨-, rfl, rfl⟩ := by simpa only [Prod.mk.injEq] using heq
          exact Nat.lt_succ_of_lt (ih hcut)

/-- The operands that are not empty and the operators behind them. -/
def plainOperands (expression : ByteString) : List ByteString × List Operator :=
  if expression = [] then ([], [])
  else
    match _hcut : cutOperator expression with
    | none => ([stripUnicodeWhitespace expression], [])
    | some (before, op, after) =>
        let rest := plainOperands after
        if stripUnicodeWhitespace before ≠ [] then
          (stripUnicodeWhitespace before :: rest.1, op :: rest.2)
        else rest
termination_by expression.length
decreasing_by exact length_cutOperator _hcut

namespace TextQuery

variable (query : TextQuery)

/-- Whether the term is somewhere in the text. -/
def occurs (term : ByteString) : Bool :=
  (List.range (query.foldedText.length + 1)).any fun position =>
    term <+: query.foldedText.drop position ∧
      (query.wholeWord = true →
        hasWordBoundaryAt query.tables query.foldedText position = true ∧
        hasWordBoundaryAt query.tables query.foldedText (position + term.length) = true)

/-- An operand: a phrase or a term, or nothing. -/
def plainLeaf (token : ByteString) : Condition :=
  let term := stripUnicodeWhitespace ((query.phrases.lookup token).getD token)
  if term = [] then none else some (query.occurs (foldCaseForDatabaseMatch query.tables term))

/-- An expression without a group. -/
def plainFlat (expression : ByteString) : Condition :=
  match plainOperands expression with
  | ([], _) => none
  | (token :: tokens, operators) =>
      (operators.zip tokens).foldl
        (fun result operand => combine result (query.plainLeaf operand.2) operand.1)
        (query.plainLeaf token)

mutual

/-- An expression, by its groups. -/
def plainExpression (rawExpression : ByteString) : Condition :=
  let expression := stripUnicodeWhitespace rawExpression
  if 40 ∈ expression then plainGrouped expression else query.plainFlat expression
termination_by (rawExpression.count 40, 1)
decreasing_by
  have hcount := (stripUnicodeWhitespace_sublist rawExpression).count_le 40
  rw [Prod.lex_def]
  simp only
  omega

/-- A group and what stands on either side of it. -/
def plainGrouped (expression : ByteString) : Condition :=
  match _hcut : cutGroup expression with
  | none => none
  | some (beforeOpen, inside, afterClose) =>
      let group := plainExpression inside
      let before := operatorBefore beforeOpen
      let after := operatorAfter afterClose
      let left := if before.1 = [] then group
        else combine (plainExpression before.1) group before.2
      if after.1 = [] then left else combine left (plainExpression after.1) after.2
termination_by (expression.count 40, 0)
decreasing_by
  all_goals
    obtain ⟨hbefore, hinside, hafter⟩ := count_cutGroup _hcut
    have hleft := (operatorBefore_sublist beforeOpen).count_le 40
    have hright := (operatorAfter_sublist afterClose).count_le 40
    exact Prod.Lex.left _ _ (by omega)

end

end TextQuery

/-- Whether the text satisfies the filter. -/
def plainMatchSeriesText (tables : UnicodeTables) (mode : SeriesTextMode) (query text : ByteString) :
    SeriesTextMatch :=
  let stripped := stripUnicodeWhitespace query
  if stripped = [] then .matches
  else if mode = .regex then .unsupported
  else if mode = .exact then
    if foldCaseForDatabaseMatch tables text = foldCaseForDatabaseMatch tables stripped then .matches
    else .noMatch
  else
    let (processed, phrases) := extractQuotedPhrases [] stripped
    let textQuery : TextQuery :=
      ⟨tables, phrases, foldCaseForDatabaseMatch tables text, mode = .search⟩
    if textQuery.plainExpression processed = some false then .noMatch else .matches

/-! ## operators -/

/-- A word is at a position where it is at the start of what is left from there. -/
theorem matchesAt_eq_startsWith {s : ByteString} {i : Nat} (hi : i ≤ s.length) (word : ByteString) :
    matchesAsciiCaseInsensitiveAt s i word =
      startsWithAsciiCaseInsensitive (s.drop i) word := by
  unfold startsWithAsciiCaseInsensitive matchesAsciiCaseInsensitiveAt
  simp only [List.length_drop, Nat.zero_add, List.getD_eq_getElem?_getD, List.getElem?_drop]
  by_cases hlong : i + word.length > s.length
  · rw [if_pos hlong, if_pos (by omega)]
  · rw [if_neg hlong, if_neg (by omega), if_neg (by omega)]

theorem eq_space_of_asciiUpper {c : UInt8} (h : asciiUpper c = 32) : c = 32 := by
  unfold asciiUpper at h
  split at h
  · next hlower =>
      obtain ⟨hle, hge⟩ := hlower
      grind
  · exact h

/-- Operators begin with a space. -/
theorem space_of_matchesAt {s : ByteString} {i : Nat} {op : Operator}
    (h : matchesAsciiCaseInsensitiveAt s i op.text = true) : s.getD i 0 = 32 := by
  unfold matchesAsciiCaseInsensitiveAt at h
  split at h
  · contradiction
  · rw [List.all_eq_true] at h
    have hfirst := h 0 (List.mem_range.mpr op.length_text_pos)
    have hspace : op.text.getD 0 0 = 32 := by cases op <;> rfl
    rw [Nat.add_zero, hspace, decide_eq_true_eq] at hfirst
    exact eq_space_of_asciiUpper hfirst

/-- The scan from `i` on finds the first operator of what is left from there. -/
theorem cutOperator_drop (expression : ByteString) (i : Nat) :
    cutOperator (expression.drop i) = (findOperator expression i).map fun found =>
      ((expression.drop i).take (found.1 - i), found.2,
        expression.drop (found.1 + found.2.text.length)) := by
  have hhere {i : Nat} (hlt : i < expression.length) (op : Operator) :
      matchesAsciiCaseInsensitiveAt expression i op.text =
        startsWithAsciiCaseInsensitive (expression[i] :: expression.drop (i + 1)) op.text := by
    rw [matchesAt_eq_startsWith (Nat.le_of_lt hlt), List.drop_eq_getElem_cons hlt]
  have hlater {i : Nat} (hlt : i < expression.length)
      (ih : cutOperator (expression.drop (i + 1)) = (findOperator expression (i + 1)).map fun found =>
        ((expression.drop (i + 1)).take (found.1 - (i + 1)), found.2,
          expression.drop (found.1 + found.2.text.length))) :
      (cutOperator (expression.drop (i + 1))).map (fun cut => (expression[i] :: cut.1, cut.2)) =
        (findOperator expression (i + 1)).map fun found =>
          ((expression.drop i).take (found.1 - i), found.2,
            expression.drop (found.1 + found.2.text.length)) := by
    rw [ih, Option.map_map]
    refine Option.map_congr fun found hfound => ?_
    obtain ⟨hle, -⟩ := findOperator_le hfound
    have hsub : found.1 - i = found.1 - (i + 1) + 1 := by omega
    rw [Function.comp_apply, List.drop_eq_getElem_cons hlt, hsub, List.take_succ_cons]
  induction i using findOperator.induct expression with
  | case1 i hlt hspace ih =>
      have hno (op : Operator) : startsWithAsciiCaseInsensitive
          (expression[i] :: expression.drop (i + 1)) op.text = false := by
        rw [← hhere hlt, Bool.eq_false_iff]
        exact fun hmatches => hspace (space_of_matchesAt hmatches)
      rw [findOperator, if_pos hlt, if_pos hspace, ← hlater hlt ih, List.drop_eq_getElem_cons hlt,
        cutOperator, hno, hno]
      rfl
  | case2 i hlt hspace hand =>
      rw [findOperator, if_pos hlt, if_neg hspace, if_pos hand, List.drop_eq_getElem_cons hlt,
        cutOperator, ← hhere hlt, if_pos hand, ← List.drop_eq_getElem_cons hlt, List.drop_drop]
      simp
  | case3 i hlt hspace hand hor =>
      rw [findOperator, if_pos hlt, if_neg hspace, if_neg hand, if_pos hor,
        List.drop_eq_getElem_cons hlt, cutOperator, ← hhere hlt, if_neg hand, ← hhere hlt, if_pos hor,
        ← List.drop_eq_getElem_cons hlt, List.drop_drop]
      simp
  | case4 i hlt hspace hand hor ih =>
      rw [findOperator, if_pos hlt, if_neg hspace, if_neg hand, if_neg hor, ← hlater hlt ih,
        List.drop_eq_getElem_cons hlt, cutOperator, ← hhere hlt, if_neg hand, ← hhere hlt, if_neg hor]
  | case5 i hlt =>
      rw [findOperator, if_neg hlt, List.drop_eq_nil_of_le (Nat.le_of_not_lt hlt)]
      rfl

theorem plainOperands_of_none {expression : ByteString} (hne : expression ≠ [])
    (hcut : cutOperator expression = none) :
    plainOperands expression = ([stripUnicodeWhitespace expression], []) := by
  rw [plainOperands, if_neg hne]
  split
  · rfl
  · next h =>
      rw [hcut] at h
      contradiction

theorem plainOperands_of_some {expression before after : ByteString} {op : Operator}
    (hcut : cutOperator expression = some (before, op, after)) :
    plainOperands expression =
      if stripUnicodeWhitespace before ≠ [] then
        (stripUnicodeWhitespace before :: (plainOperands after).1, op :: (plainOperands after).2)
      else plainOperands after := by
  have hne : expression ≠ [] := by
    rintro rfl
    contradiction
  rw [plainOperands, if_neg hne]
  split
  · next h =>
      rw [hcut] at h
      contradiction
  · next h =>
      obtain ⟨rfl, rfl, rfl⟩ := by simpa only [hcut, Option.some.injEq, Prod.mk.injEq] using h
      rfl

/-- One pass over the expression gives the operands that cutting it off at every
operator does. -/
theorem splitOperands_eq (expression : ByteString) (start : Nat) :
    splitOperands expression start = plainOperands (expression.drop start) := by
  by_cases hlt : start < expression.length
  · rw [splitOperands, if_pos hlt]
    have hcut := cutOperator_drop expression start
    split
    · next hfind =>
        rw [hfind] at hcut
        rw [plainOperands_of_none (by simpa using hlt) hcut]
    · next position op hfind =>
        rw [hfind] at hcut
        have hshorter : expression.length - (position + op.text.length) < expression.length - start := by
          obtain ⟨hle, -⟩ := findOperator_le hfind
          have hpos := op.length_text_pos
          omega
        rw [plainOperands_of_some hcut, splitOperands_eq expression (position + op.text.length)]
  · rw [splitOperands, if_neg hlt, List.drop_eq_nil_of_le (Nat.le_of_not_lt hlt), plainOperands,
      if_pos rfl]
termination_by expression.length - start
decreasing_by assumption

/-! ## the search for a term -/

theorem QueryState.answers_spend (state : QueryState) (units : Nat) :
    (state.spend units).2.answers = state.answers := by
  unfold spend
  split <;> rfl

/-- Work that was not too much was done. -/
theorem QueryState.spend_eq_true {state : QueryState} {units : Nat}
    (h : (state.spend units).2.overBudget = false) :
    (state.spend units).1 = true ∧ state.overBudget = false := by
  unfold spend at h ⊢
  split at h
  · contradiction
  · next hfits =>
      rw [if_neg hfits]
      exact ⟨rfl, h⟩

/-- Nothing is passed over. -/
theorem findByte_first {text : ByteString} {b : UInt8} {start position : Nat}
    (hle : start ≤ position) (hat : text[position]? = some b) :
    ∃ hit, findByte text b start = some hit ∧ hit ≤ position := by
  obtain ⟨k, rfl⟩ := Nat.exists_eq_add_of_le hle
  rw [← List.getElem?_drop] at hat
  obtain ⟨hlt, hb⟩ := List.getElem?_eq_some_iff.mp hat
  unfold findByte
  cases hfind : (text.drop start).findIdx? (· = b) with
  | none =>
      have hnot := List.findIdx?_eq_none_iff.mp hfind b (hb ▸ List.getElem_mem hlt)
      simp at hnot
  | some j =>
      obtain ⟨_, -, hbefore⟩ := List.findIdx?_eq_some_iff_getElem.mp hfind
      refine ⟨start + j, rfl, Nat.le_of_not_lt fun hlater => ?_⟩
      exact hbefore k (by omega) (by simpa using hb)

namespace TextQuery

variable (query : TextQuery)

theorem matchesAt_iff {term : ByteString} {position : Nat} :
    query.matchesAt term position = true ↔ term <+: query.foldedText.drop position ∧
      (query.wholeWord = true →
        hasWordBoundaryAt query.tables query.foldedText position = true ∧
        hasWordBoundaryAt query.tables query.foldedText (position + term.length) = true) := by
  unfold matchesAt
  rw [decide_eq_true_eq, List.prefix_iff_eq_take, eq_comm]
  cases query.wholeWord <;> simp

/-- Where a term is the text goes on for as long, with its first byte first. -/
theorem matchesAt_first {term : ByteString} (hterm : term ≠ []) {position : Nat}
    (h : query.matchesAt term position = true) :
    position + term.length ≤ query.foldedText.length ∧
      query.foldedText[position]? = some (term.getD 0 0) := by
  obtain ⟨hstarts, -⟩ := query.matchesAt_iff.mp h
  have hlength := hstarts.length_le
  have hpos := List.length_pos_iff.mpr hterm
  rw [List.length_drop] at hlength
  refine ⟨by omega, ?_⟩
  have hfirst := List.prefix_iff_getElem?.mp hstarts 0 hpos
  rw [List.getElem?_drop, Nat.add_zero] at hfirst
  rw [hfirst, List.getD_eq_getElem?_getD, List.getElem?_eq_getElem hpos]
  rfl

/-- The search finds the term where it is, unless it gives up. -/
theorem findFrom_spec {term : ByteString} (hterm : term ≠ []) (start : Nat) (state : QueryState) :
    (query.findFrom term start state).2.answers = state.answers ∧
      ((query.findFrom term start state).2.overBudget = false →
        state.overBudget = false ∧ ((query.findFrom term start state).1 = true ↔
          ∃ position, start ≤ position ∧ query.matchesAt term position = true)) := by
  -- what is found at all is found at or after the next byte like its first
  have hcandidate {position : Nat} (hle : start ≤ position)
      (hmatches : query.matchesAt term position = true) :
      ∃ hit, findByte query.foldedText (term.getD 0 0) start = some hit ∧ hit ≤ position :=
    findByte_first hle (query.matchesAt_first hterm hmatches).2
  by_cases hlt : start < query.foldedText.length
  · rw [findFrom, if_pos hlt]
    split
    · next hnone =>
        refine ⟨state.answers_spend _, fun hover => ⟨(QueryState.spend_eq_true hover).2, ?_⟩⟩
        refine iff_of_false Bool.false_ne_true ?_
        rintro ⟨position, hle, hmatches⟩
        obtain ⟨hit, hhit, -⟩ := hcandidate hle hmatches
        rw [hnone] at hhit
        contradiction
    · next hit hhit =>
        obtain ⟨hle, hhitlt, -⟩ := findByte_eq_some hhit
        have hlater {position : Nat} (hle : start ≤ position)
            (hmatches : query.matchesAt term position = true) : hit ≤ position := by
          obtain ⟨hit', hhit', hle'⟩ := hcandidate hle hmatches
          rw [hhit] at hhit'
          exact Option.some.inj hhit' ▸ hle'
        simp only
        split
        · next hstop =>
            refine ⟨state.answers_spend _, fun hover => ?_⟩
            obtain ⟨hspent, hbefore⟩ := QueryState.spend_eq_true hover
            refine ⟨hbefore, iff_of_false Bool.false_ne_true ?_⟩
            rintro ⟨position, hle, hmatches⟩
            have hfits := (query.matchesAt_first hterm hmatches).1
            have hafter := hlater hle hmatches
            simp only [hspent, Bool.not_true, Bool.false_eq_true, false_or] at hstop
            omega
        · next hscanned =>
            have hscanned := not_or.mp hscanned
            split
            · next hstop =>
                refine ⟨by rw [QueryState.answers_spend, QueryState.answers_spend], fun hover => ?_⟩
                have hspent := (QueryState.spend_eq_true hover).1
                simp [hspent] at hstop
            · split
              · next hfound =>
                  refine ⟨by rw [QueryState.answers_spend, QueryState.answers_spend], fun hover => ?_⟩
                  have hbefore := (QueryState.spend_eq_true (QueryState.spend_eq_true hover).2).2
                  exact ⟨hbefore, iff_of_true rfl ⟨hit, hle, hfound⟩⟩
              · next hnot =>
                  have hshorter : query.foldedText.length - (hit + 1) <
                    query.foldedText.length - start := by omega
                  obtain ⟨hanswers, hrest⟩ := findFrom_spec hterm (hit + 1)
                    ((state.spend (hit + 1 - start)).2.spend
                      (seriesMatchCandidateCost + term.length / 16)).2
                  refine ⟨by rw [hanswers, QueryState.answers_spend, QueryState.answers_spend],
                    fun hover => ?_⟩
                  obtain ⟨hspent, hiff⟩ := hrest hover
                  have hbefore := (QueryState.spend_eq_true (QueryState.spend_eq_true hspent).2).2
                  refine ⟨hbefore, hiff.trans ⟨?_, ?_⟩⟩
                  · rintro ⟨position, hafter, hmatches⟩
                    exact ⟨position, by omega, hmatches⟩
                  · rintro ⟨position, hafter, hmatches⟩
                    have hle' := hlater hafter hmatches
                    have hne : position ≠ hit := fun heq => hnot (heq ▸ hmatches)
                    exact ⟨position, by omega, hmatches⟩
  · rw [findFrom, if_neg hlt]
    refine ⟨rfl, fun hover => ⟨hover, iff_of_false Bool.false_ne_true ?_⟩⟩
    rintro ⟨position, hle, hmatches⟩
    have hfits := (query.matchesAt_first hterm hmatches).1
    have hpos := List.length_pos_iff.mpr hterm
    omega
termination_by query.foldedText.length - start
decreasing_by assumption

theorem occurs_iff {term : ByteString} (hterm : term ≠ []) :
    query.occurs term = true ↔ ∃ position, query.matchesAt term position = true := by
  simp only [occurs, List.any_eq_true, List.mem_range, decide_eq_true_eq, ← matchesAt_iff]
  constructor
  · rintro ⟨position, -, hmatches⟩
    exact ⟨position, hmatches⟩
  · rintro ⟨position, hmatches⟩
    have hfits := (query.matchesAt_first hterm hmatches).1
    exact ⟨position, by omega, hmatches⟩

/-! ## the evaluation -/

/-- The answers so far are right. -/
def Knows (state : QueryState) : Prop := Sound query.occurs state.answers

/-- What the evaluation gives is `value`, unless it is over budget. -/
abbrev Evaluates (state : QueryState) (result : Condition × QueryState) (value : Condition) : Prop :=
  Agrees query.Knows QueryState.overBudget state result value

/-- A term is looked for once. -/
theorem leaf_evaluates (token : ByteString) {state : QueryState} (h : query.Knows state) :
    query.Evaluates state (query.leaf token state) (query.plainLeaf token) := by
  unfold leaf plainLeaf
  split
  · next hover => exact .of_gaveUp h hover _
  simp only
  split
  · exact .pure h _
  · next hterm =>
      have hfolded := foldCaseForDatabaseMatch_ne_nil query.tables hterm
      generalize foldCaseForDatabaseMatch query.tables _ = foldedTerm at hfolded
      cases hknown : state.answers.lookup foldedTerm with
      | some found =>
          rw [← h foldedTerm found hknown]
          exact .pure h _
      | none =>
          obtain ⟨hanswers, hfind⟩ := query.findFrom_spec hfolded 0 state
          have hknows : query.Knows (query.findFrom foldedTerm 0 state).2 := by
            unfold Knows
            rw [hanswers]
            exact h
          simp only
          split
          · next hover => exact ⟨hknows, fun hnot => absurd (hnot.symm.trans hover) Bool.false_ne_true⟩
          · next hover =>
              obtain ⟨hbefore, hiff⟩ := hfind (Bool.not_eq_true _ ▸ hover)
              have hfound : (query.findFrom foldedTerm 0 state).1 = query.occurs foldedTerm := by
                rw [Bool.eq_iff_iff, hiff, query.occurs_iff hfolded]
                simp only [Nat.zero_le, true_and]
              rw [hfound]
              exact ⟨hknows.cons foldedTerm, fun _ => ⟨hbefore, rfl⟩⟩

theorem combine_settled {value : Bool} {op : Operator} (h : value = (op == .or))
    (right : Condition) : combine (some value) right op = some value := by
  subst h
  cases right with
  | none => rfl
  | some r => cases op <;> rfl

/-- Operands that cannot change the result may be left out. -/
theorem combineOperands_evaluates (operands : List (Operator × ByteString)) (result : Condition)
    {state : QueryState} (h : query.Knows state) :
    query.Evaluates state (query.combineOperands operands result state)
      (operands.foldl (fun result operand => combine result (query.plainLeaf operand.2) operand.1)
        result) := by
  induction operands generalizing result state with
  | nil => exact .pure h _
  | cons operand operands ih =>
      obtain ⟨op, token⟩ := operand
      unfold combineOperands
      split
      · next hsettled =>
          have hcombine : combine result (query.plainLeaf token) op = result := by
            rw [hsettled]
            exact combine_settled rfl _
          simp only [List.foldl_cons, hcombine]
          exact ih result h
      · have hleaf := query.leaf_evaluates token h
        exact hleaf.bind (f := fun operand => operands.foldl
          (fun result operand => combine result (query.plainLeaf operand.2) operand.1)
          (combine result operand op)) (ih _ hleaf.inv)

/-- An expression without a group. -/
theorem parseOperands_evaluates (expression : ByteString) {state : QueryState}
    (h : query.Knows state) :
    query.Evaluates state (query.parseOperands expression state) (query.plainFlat expression) := by
  unfold parseOperands plainFlat
  rw [splitOperands_eq, List.drop_zero]
  obtain ⟨tokens, operators⟩ := plainOperands expression
  cases tokens with
  | nil => exact .pure h _
  | cons token tokens =>
      have hleaf := query.leaf_evaluates token h
      exact hleaf.bind (f := fun result => (operators.zip tokens).foldl
        (fun result operand => combine result (query.plainLeaf operand.2) operand.1) result)
        (query.combineOperands_evaluates _ _ hleaf.inv)

/-- A group and what stands on either side of it, each of which has fewer groups
than the whole. -/
theorem parseGrouped_evaluates {expression : ByteString}
    (ih : ∀ part : ByteString, part.count 40 < expression.count 40 → ∀ state, query.Knows state →
      query.Evaluates state (query.parseExpression part state) (query.plainExpression part))
    {state : QueryState} (h : query.Knows state) :
    query.Evaluates state (query.parseGrouped expression state)
      (query.plainGrouped expression) := by
  rw [parseGrouped, plainGrouped]
  cases hcut : cutGroup expression with
  | none => exact .pure h _
  | some cut =>
      obtain ⟨beforeOpen, inside, afterClose⟩ := cut
      obtain ⟨hbefore, hinside, hafter⟩ := count_cutGroup hcut
      have hbefore := Nat.lt_of_le_of_lt ((operatorBefore_sublist beforeOpen).count_le 40) hbefore
      have hafter := Nat.lt_of_le_of_lt ((operatorAfter_sublist afterClose).count_le 40) hafter
      have hgroup := ih inside hinside state h
      simp only
      generalize operatorBefore beforeOpen = before at hbefore ⊢
      generalize operatorAfter afterClose = after at hafter ⊢
      generalize query.parseExpression inside state = group at hgroup ⊢
      have hleft : query.Evaluates state
          (if before.1 = [] then group
            else (combine (query.parseExpression before.1 group.2).1 group.1 before.2,
              (query.parseExpression before.1 group.2).2))
          (if before.1 = [] then query.plainExpression inside
            else combine (query.plainExpression before.1) (query.plainExpression inside) before.2) := by
        split
        · exact hgroup
        · have hoperand := ih before.1 hbefore group.2 hgroup.inv
          exact hgroup.bind (f := (combine (query.plainExpression before.1) · before.2))
            (hoperand.map (combine · group.1 before.2))
      generalize (if before.1 = [] then group
        else (combine (query.parseExpression before.1 group.2).1 group.1 before.2,
          (query.parseExpression before.1 group.2).2)) = left at hleft ⊢
      split
      · exact hleft
      · have hoperand := ih after.1 hafter left.2 hleft.inv
        exact hleft.bind (f := (combine · (query.plainExpression after.1) after.2))
          (hoperand.map (combine left.1 · after.2))

/-- An expression, by induction on the number of its groups. -/
theorem parseExpression_evaluates (rawExpression : ByteString) {state : QueryState}
    (h : query.Knows state) :
    query.Evaluates state (query.parseExpression rawExpression state)
      (query.plainExpression rawExpression) := by
  induction hgroups : rawExpression.count 40 using Nat.strongRecOn generalizing rawExpression state with
  | ind groups ih =>
      subst hgroups
      rw [parseExpression, plainExpression]
      have hcount := (stripUnicodeWhitespace_sublist rawExpression).count_le 40
      split
      · refine query.parseGrouped_evaluates (fun part hfewer state hknows => ?_) h
        exact ih _ (Nat.lt_of_lt_of_le hfewer hcount) part hknows rfl
      · exact query.parseOperands_evaluates _ h

end TextQuery

/-- The matcher says what the plain evaluation does, or that it cannot say. -/
theorem series_text_match_plain (tables : UnicodeTables) (mode : SeriesTextMode)
    (query text : ByteString) :
    matchSeriesText tables mode query text = .unsupported ∨
      matchSeriesText tables mode query text = plainMatchSeriesText tables mode query text := by
  unfold matchSeriesText plainMatchSeriesText
  simp only
  split
  · exact .inr rfl
  split
  · exact .inr rfl
  split
  · exact .inr rfl
  split
  · exact .inl rfl
  split
  · exact .inl rfl
  generalize hquery : TextQuery.mk tables _ _ _ = textQuery
  have hnothing : textQuery.Knows {} := .nil textQuery.occurs
  have hevaluates := textQuery.parseExpression_evaluates
    (extractQuotedPhrases [] (stripUnicodeWhitespace query)).1 hnothing
  split
  · exact .inl rfl
  · next hover =>
      obtain ⟨-, hcondition⟩ := hevaluates.agrees (Bool.not_eq_true _ ▸ hover)
      rw [hcondition]
      exact .inr rfl

end DispatcharrPvr
