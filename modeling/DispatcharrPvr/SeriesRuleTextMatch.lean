import DispatcharrPvr.Lib.Cut
import DispatcharrPvr.UnicodeText

/-!
# SeriesRuleTextMatch

Whether a programme text satisfies the filter of a series rule
(`SeriesRuleTextMatch.cpp`): the AND/OR/quote/parenthesis grammar of the
server, evaluated as it is parsed.

The members of `TextQuery` that never change are a parameter, those that do are
passed along as a `QueryState`.
-/

namespace DispatcharrPvr

open Cut

/-! ## conditions -/

/-- `SeriesTextMode`. -/
inductive SeriesTextMode where
  | exact
  | contains
  | search
  | regex
deriving DecidableEq, Repr

/-- `SeriesTextMatch`. -/
inductive SeriesTextMatch where
  | matches
  | noMatch
  | unsupported
deriving DecidableEq, Repr

/-- `kMaxSeriesQueryBytes`. -/
def maxSeriesQueryBytes : Nat := 4096

/-- `kMaxSeriesQueryGroups`. -/
def maxSeriesQueryGroups : Nat := 64

/-- `kMaxSeriesMatchWork`. -/
def maxSeriesMatchWork : Nat := 128 * 1024 * 1024

/-- `kSeriesMatchCandidateCost`. -/
def seriesMatchCandidateCost : Nat := 64

/-- A value, or `none` for an empty operand. -/
abbrev Condition := Option Bool

/-- The operators, `&` and `|`. -/
inductive Operator where
  | and
  | or
deriving DecidableEq, Repr

/-- `Combine`. -/
def combine (left right : Condition) (op : Operator) : Condition :=
  match left, right with
  | none, right => right
  | left, none => left
  | some l, some r => some (if op = .and then l && r else l || r)

/-! ## the words of the grammar -/

/-- `AsciiUpper`. -/
def asciiUpper (c : UInt8) : UInt8 := if 97 ≤ c ∧ c ≤ 122 then c - 32 else c

/-- `MatchesAsciiCaseInsensitiveAt`. -/
def matchesAsciiCaseInsensitiveAt (haystack : ByteString) (position : Nat) (needle : ByteString) :
    Bool :=
  if position + needle.length > haystack.length then false
  else (List.range needle.length).all fun k =>
    asciiUpper (haystack.getD (position + k) 0) = needle.getD k 0

/-- `EndsWithAsciiCaseInsensitive`. -/
def endsWithAsciiCaseInsensitive (s suffix : ByteString) : Bool :=
  if suffix.length > s.length then false
  else matchesAsciiCaseInsensitiveAt s (s.length - suffix.length) suffix

/-- `StartsWithAsciiCaseInsensitive`. -/
def startsWithAsciiCaseInsensitive (s start : ByteString) : Bool :=
  if start.length > s.length then false else matchesAsciiCaseInsensitiveAt s 0 start

/-- The operator with a space on each side. -/
def Operator.text : Operator → ByteString
  | and => ascii " AND "
  | or => ascii " OR "

theorem Operator.length_text_pos (op : Operator) : 0 < op.text.length := by
  cases op <;> decide

/-! ## phrases -/

/-- The quoted phrases by their placeholders. -/
abbrev Phrases := List (ByteString × ByteString)

/-- The placeholder of the next phrase. -/
def phraseKey (n : Nat) : ByteString := 0 :: 80 :: (toByteString n ++ [0])

/-- `ExtractQuotedPhrases`, with the phrases found so far. -/
def extractQuotedPhrases (phrases : Phrases) (raw : ByteString) : ByteString × Phrases :=
  match _hopen : cutFirst [34] raw with
  | none => (raw, phrases)
  | some (before, rest) =>
      match _hclose : cutFirst [34] rest with
      | none => (raw, phrases)
      | some (phrase, after) =>
          let key := phraseKey phrases.length
          let (out, phrases) := extractQuotedPhrases (phrases ++ [(key, phrase)]) after
          (before ++ key ++ out, phrases)
termination_by raw.length
decreasing_by
  rw [cutFirst_eq_some _hopen, cutFirst_eq_some _hclose]
  simp only [List.length_append, List.length_singleton]
  omega

/-! ## a term -/

/-- The members of `TextQuery` that stay, and the tables. -/
structure TextQuery where
  tables : UnicodeTables
  phrases : Phrases
  foldedText : ByteString
  wholeWord : Bool

/-- The members of `TextQuery` that change. -/
structure QueryState where
  answers : List (ByteString × Bool) := []
  work : Nat := 0
  overBudget : Bool := false
deriving DecidableEq, Repr

/-- `HasWordBoundaryAt`. -/
def hasWordBoundaryAt (tables : UnicodeTables) (s : ByteString) (position : Nat) : Bool :=
  let previousIsWord :=
    if 0 < position then isDatabaseWordCodePoint tables (decodeUtf8Before s position).1 else false
  let nextIsWord :=
    if position < s.length then isDatabaseWordCodePoint tables (decodeUtf8At s position).1 else false
  previousIsWord != nextIsWord

/-- `Spend`. -/
def QueryState.spend (state : QueryState) (units : Nat) : Bool × QueryState :=
  if units > maxSeriesMatchWork - state.work then (false, { state with overBudget := true })
  else (true, { state with work := state.work + units })

/-- `find` of one byte. -/
def findByte (text : ByteString) (b : UInt8) (start : Nat) : Option Nat :=
  ((text.drop start).findIdx? (· = b)).map (start + ·)

theorem findByte_eq_some {text : ByteString} {b : UInt8} {start hit : Nat}
    (h : findByte text b start = some hit) :
    start ≤ hit ∧ ∃ hlt : hit < text.length, text[hit] = b := by
  obtain ⟨k, hk, rfl⟩ := Option.map_eq_some_iff.mp h
  obtain ⟨hlt, hat, -⟩ := List.findIdx?_eq_some_iff_getElem.mp hk
  rw [List.length_drop] at hlt
  refine ⟨Nat.le_add_right .., by omega, ?_⟩
  simpa [List.getElem_drop] using hat

namespace TextQuery

variable (query : TextQuery)

/-- The term is at `hit`, on word boundaries where it has to be. -/
def matchesAt (term : ByteString) (hit : Nat) : Bool :=
  (query.foldedText.drop hit).take term.length = term ∧
    (!query.wholeWord ∨ (hasWordBoundaryAt query.tables query.foldedText hit ∧
      hasWordBoundaryAt query.tables query.foldedText (hit + term.length)))

/-- `Find`, from `start` on. -/
def findFrom (term : ByteString) (start : Nat) (state : QueryState) : Bool × QueryState :=
  if start < query.foldedText.length then
    match _hhit : findByte query.foldedText (term.getD 0 0) start with
    | none => (false, (state.spend (query.foldedText.length - start)).2)
    | some hit =>
        let scanned := state.spend (hit + 1 - start)
        if !scanned.1 ∨ term.length > query.foldedText.length - hit then (false, scanned.2)
        else
          let compared := scanned.2.spend (seriesMatchCandidateCost + term.length / 16)
          if !compared.1 then (false, compared.2)
          else if query.matchesAt term hit then (true, compared.2)
          else findFrom term (hit + 1) compared.2
  else (false, state)
termination_by query.foldedText.length - start
decreasing_by
  obtain ⟨hle, hlt, -⟩ := findByte_eq_some _hhit
  omega

/-- `Leaf`. -/
def leaf (token : ByteString) (state : QueryState) : Condition × QueryState :=
  if state.overBudget then (none, state)
  else
    let term := stripUnicodeWhitespace ((query.phrases.lookup token).getD token)
    if term = [] then (none, state)
    else
      let foldedTerm := foldCaseForDatabaseMatch query.tables term
      match state.answers.lookup foldedTerm with
      | some found => (some found, state)
      | none =>
          let (found, state) := query.findFrom foldedTerm 0 state
          if state.overBudget then (none, state)
          else (some found, { state with answers := (foldedTerm, found) :: state.answers })

/-! ## operands -/

end TextQuery

/-- The earliest operator wholly at or after `i`. -/
def findOperator (expression : ByteString) (i : Nat) : Option (Nat × Operator) :=
  if i < expression.length then
    if expression.getD i 0 ≠ 32 then findOperator expression (i + 1)
    else if matchesAsciiCaseInsensitiveAt expression i Operator.and.text then some (i, .and)
    else if matchesAsciiCaseInsensitiveAt expression i Operator.or.text then some (i, .or)
    else findOperator expression (i + 1)
  else none
termination_by expression.length - i

theorem findOperator_le {expression : ByteString} {i position : Nat} {op : Operator}
    (h : findOperator expression i = some (position, op)) :
    i ≤ position ∧ position < expression.length := by
  induction i using findOperator.induct expression with
  | case1 i hlt hspace ih =>
      rw [findOperator, if_pos hlt, if_pos hspace] at h
      obtain ⟨hle, hposition⟩ := ih h
      exact ⟨by omega, hposition⟩
  | case2 i hlt hspace hand =>
      rw [findOperator, if_pos hlt, if_neg hspace, if_pos hand] at h
      obtain ⟨rfl, -⟩ := Prod.mk.inj (Option.some.inj h)
      exact ⟨Nat.le_refl _, hlt⟩
  | case3 i hlt hspace hand hor =>
      rw [findOperator, if_pos hlt, if_neg hspace, if_neg hand, if_pos hor] at h
      obtain ⟨rfl, -⟩ := Prod.mk.inj (Option.some.inj h)
      exact ⟨Nat.le_refl _, hlt⟩
  | case4 i hlt hspace hand hor ih =>
      rw [findOperator, if_pos hlt, if_neg hspace, if_neg hand, if_neg hor] at h
      obtain ⟨hle, hposition⟩ := ih h
      exact ⟨by omega, hposition⟩
  | case5 i hlt =>
      rw [findOperator, if_neg hlt] at h
      contradiction

/-- One pass over the expression from `start` on: the operands that are not
empty and the operators behind them. -/
def splitOperands (expression : ByteString) (start : Nat) : List ByteString × List Operator :=
  if start < expression.length then
    match _hfind : findOperator expression start with
    | none => ([stripUnicodeWhitespace (expression.drop start)], [])
    | some (position, op) =>
        let token := stripUnicodeWhitespace ((expression.drop start).take (position - start))
        let rest := splitOperands expression (position + op.text.length)
        if token ≠ [] then (token :: rest.1, op :: rest.2) else rest
  else ([], [])
termination_by expression.length - start
decreasing_by
  obtain ⟨hle, -⟩ := findOperator_le _hfind
  have hpos := op.length_text_pos
  omega

namespace TextQuery

variable (query : TextQuery)

/-- The operands behind the first, left to right, without those that cannot
change the result any more. -/
def combineOperands : List (Operator × ByteString) → Condition → QueryState →
    Condition × QueryState
  | [], result, state => (result, state)
  | (op, token) :: operands, result, state =>
      if result = some (op == .or) then combineOperands operands result state
      else
        let (operand, state) := query.leaf token state
        combineOperands operands (combine result operand op) state

/-- `ParseExpression` without a group. -/
def parseOperands (expression : ByteString) (state : QueryState) : Condition × QueryState :=
  match splitOperands expression 0 with
  | ([], _) => (none, state)
  | (token :: tokens, operators) =>
      let (result, state) := query.leaf token state
      query.combineOperands (operators.zip tokens) result state

end TextQuery

/-! ## groups -/

/-- What stands before a group, and the operator that combines it. -/
def operatorBefore (beforeOpen : ByteString) : ByteString × Operator :=
  let before := stripTrailingUnicodeWhitespace beforeOpen
  if endsWithAsciiCaseInsensitive before (ascii " AND") then
    (stripTrailingUnicodeWhitespace (before.take (before.length - 4)), .and)
  else if endsWithAsciiCaseInsensitive before (ascii " OR") then
    (stripTrailingUnicodeWhitespace (before.take (before.length - 3)), .or)
  else (before, .and)

/-- What stands after a group, and the operator that combines it. -/
def operatorAfter (afterClose : ByteString) : ByteString × Operator :=
  let after := stripLeadingUnicodeWhitespace afterClose
  if startsWithAsciiCaseInsensitive after (ascii "AND ") then
    (stripLeadingUnicodeWhitespace (after.drop 4), .and)
  else if startsWithAsciiCaseInsensitive after (ascii "OR ") then
    (stripLeadingUnicodeWhitespace (after.drop 3), .or)
  else (after, .and)

theorem operatorBefore_sublist (beforeOpen : ByteString) :
    (operatorBefore beforeOpen).1.Sublist beforeOpen := by
  have hstrip := stripTrailingUnicodeWhitespace_sublist beforeOpen
  unfold operatorBefore
  simp only
  split
  · exact (stripTrailingUnicodeWhitespace_sublist _).trans ((List.take_sublist _ _).trans hstrip)
  · split
    · exact (stripTrailingUnicodeWhitespace_sublist _).trans ((List.take_sublist _ _).trans hstrip)
    · exact hstrip

theorem operatorAfter_sublist (afterClose : ByteString) :
    (operatorAfter afterClose).1.Sublist afterClose := by
  have hstrip := stripLeadingUnicodeWhitespace_sublist afterClose
  unfold operatorAfter
  simp only
  split
  · exact (stripLeadingUnicodeWhitespace_sublist _).trans ((List.drop_sublist _ _).trans hstrip)
  · split
    · exact (stripLeadingUnicodeWhitespace_sublist _).trans ((List.drop_sublist _ _).trans hstrip)
    · exact hstrip

/-- The parts of an expression around its last opening parenthesis and the
first closing one after it. -/
def cutGroup (expression : ByteString) : Option (ByteString × ByteString × ByteString) :=
  match cutLast 40 expression with
  | none => none
  | some (before, rest) => (cutFirst [41] rest).map fun cut => (before, cut.1, cut.2)

/-- None of them has as many opening parentheses. -/
theorem count_cutGroup {expression before inside after : ByteString}
    (h : cutGroup expression = some (before, inside, after)) :
    before.count 40 < expression.count 40 ∧ inside.count 40 < expression.count 40 ∧
      after.count 40 < expression.count 40 := by
  unfold cutGroup at h
  cases hopen : cutLast 40 expression with
  | none => simp [hopen] at h
  | some cut =>
      rw [hopen] at h
      obtain ⟨cut', hclose, hparts⟩ := Option.map_eq_some_iff.mp h
      simp only [Prod.mk.injEq] at hparts
      obtain ⟨rfl, rfl, rfl⟩ := hparts
      obtain ⟨rfl, hnone⟩ := cutLast_eq_some_iff.mp hopen
      obtain ⟨hrest, -⟩ := cutFirst_singleton_eq_some_iff.mp hclose
      have hcount : cut.2.count 40 = 0 := List.count_eq_zero.mpr hnone
      rw [hrest, List.count_append, List.count_cons] at hcount
      rw [List.count_append, List.count_cons_self]
      omega

namespace TextQuery

variable (query : TextQuery)

mutual

/-- `ParseExpression`. -/
def parseExpression (rawExpression : ByteString) (state : QueryState) : Condition × QueryState :=
  let expression := stripUnicodeWhitespace rawExpression
  if 40 ∈ expression then parseGrouped expression state
  else query.parseOperands expression state
termination_by (rawExpression.count 40, 1)
decreasing_by
  have hcount := (stripUnicodeWhitespace_sublist rawExpression).count_le 40
  rw [Prod.lex_def]
  simp only
  omega

/-- `ParseGrouped`. -/
def parseGrouped (expression : ByteString) (state : QueryState) : Condition × QueryState :=
  match _hcut : cutGroup expression with
  | none => (none, state)
  | some (beforeOpen, inside, afterClose) =>
      let group := parseExpression inside state
      let before := operatorBefore beforeOpen
      let after := operatorAfter afterClose
      let left :=
        if before.1 = [] then group
        else
          let operand := parseExpression before.1 group.2
          (combine operand.1 group.1 before.2, operand.2)
      if after.1 = [] then left
      else
        let operand := parseExpression after.1 left.2
        (combine left.1 operand.1 after.2, operand.2)
termination_by (expression.count 40, 0)
decreasing_by
  all_goals
    obtain ⟨hbefore, hinside, hafter⟩ := count_cutGroup _hcut
    have hleft := (operatorBefore_sublist beforeOpen).count_le 40
    have hright := (operatorAfter_sublist afterClose).count_le 40
    exact Prod.Lex.left _ _ (by omega)

end

end TextQuery

/-- `MatchSeriesText`. -/
def matchSeriesText (tables : UnicodeTables) (mode : SeriesTextMode) (query text : ByteString) :
    SeriesTextMatch :=
  let stripped := stripUnicodeWhitespace query
  if stripped = [] then .matches
  else if mode = .regex then .unsupported
  else if mode = .exact then
    if foldCaseForDatabaseMatch tables text = foldCaseForDatabaseMatch tables stripped then .matches
    else .noMatch
  else if stripped.length > maxSeriesQueryBytes then .unsupported
  else
    let (processed, phrases) := extractQuotedPhrases [] stripped
    if processed.count 40 > maxSeriesQueryGroups then .unsupported
    else
      let textQuery : TextQuery :=
        ⟨tables, phrases, foldCaseForDatabaseMatch tables text, mode = .search⟩
      let (condition, state) := textQuery.parseExpression processed {}
      if state.overBudget then .unsupported
      else if condition = some false then .noMatch
      else .matches

end DispatcharrPvr
