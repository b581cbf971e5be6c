import DispatcharrPvr.JsonFieldUtil
import DispatcharrPvr.RenewRecurringRules

/-!
# AdoptionMigration

The one-time marking of the existing recurring rules, over any number of cycles
and restarts.  What a restart keeps is the state file: the text of a JSON
document (`SerializeAdoptionState`, `ParseAdoptionState`).

The JSON library's `dump` and `parse` are parameters; all that is asked of them
is that a dumped document is read back, its non-negative integers as unsigned
ones.
-/

namespace DispatcharrPvr

/-! ## the state file -/

/-- The document of `SerializeAdoptionState`, its integers made by `number`. -/
def adoptionDocument (number : Int → Json) (state : RecurringRuleAdoptionState) : Json :=
  .object [("done", .boolean state.done), ("pending", .array (state.pending.map number)),
    ("version", number 1)]

/-- `SerializeAdoptionState`. -/
def serializeAdoptionState {Text : Type} (dump : Json → Text) (state : RecurringRuleAdoptionState) :
    Text :=
  dump (adoptionDocument .numberInteger state)

/-- An id of the `pending` array: one outside int's range is dropped. -/
def pendingId : Json → Option Int
  | .numberUnsigned n => if (n : Int) ≤ intMax ∧ (n : Int) > 0 then some n else none
  | .numberInteger n => if n ≤ intMax ∧ n > 0 then some n else none
  | _ => none

/-- `ParseAdoptionState` on the parsed document. -/
def parseAdoptionDocument (doc : Json) : Option RecurringRuleAdoptionState :=
  if fieldOrInt doc "version" 0 ≠ 1 then none
  else
    match doc.at? "done" with
    | some (.boolean done) =>
        let pending :=
          match doc.at? "pending" with
          | some (.array items) => items.filterMap pendingId
          | _ => []
        some { known := true, done, pending := if done then [] else pending }
    | _ => none

/-- `ParseAdoptionState`, `none` when it returns false. -/
def parseAdoptionState {Text : Type} (parse : Text → Option Json) (text : Text) :
    Option RecurringRuleAdoptionState :=
  (parse text).bind parseAdoptionDocument

/-- What the JSON library reads of the documents it wrote. -/
def ReadsBack {Text : Type} (dump : Json → Text) (parse : Text → Option Json) : Prop :=
  ∀ state : RecurringRuleAdoptionState, (∀ id ∈ state.pending, 0 ≤ id) →
    parse (dump (adoptionDocument .numberInteger state)) =
      some (adoptionDocument (fun n => .numberUnsigned n.toNat) state)

/-! ## cycles and restarts -/

/-- What one cycle is given. -/
structure AdoptionCycle where
  answers : RuleAnswers
  rules : List RecurringRule
  recordings : List Recording := []
  haveRecordings : Bool := true
  now : Int

inductive AdoptionEvent where
  | cycle (given : AdoptionCycle)
  | restart

/-- The running add-on and `recurring_rule_adoption.json`. -/
structure AdoptionSystem (Text : Type) where
  state : RenewalState
  file : Option Text := none

namespace AdoptionSystem

variable {Text : Type} (dump : Json → Text) (parse : Text → Option Json)

/-- `AdoptExistingRecurringRulesOnce` and the file it saves; a marking that was
done already saves nothing. -/
def cycle (sys : AdoptionSystem Text) (given : AdoptionCycle) : AdoptionSystem Text :=
  let adopted := adoptExistingRecurringRulesOnce given.answers given.rules given.recordings
    given.haveRecordings given.now sys.state
  { state := adopted.1
    file :=
      if sys.state.adoption.known && sys.state.adoption.done then sys.file
      else some (serializeAdoptionState dump adopted.1.adoption) }

/-- `LoadRecurringAdoptionState` in a new process. -/
def restart (sys : AdoptionSystem Text) : AdoptionSystem Text :=
  { sys with
    state :=
      { sys.state with
        adoption := (sys.file.bind (parseAdoptionState parse)).getD {}
        failures := fun _ => 0 } }

def next (sys : AdoptionSystem Text) : AdoptionEvent → AdoptionSystem Text
  | .cycle given => sys.cycle dump given
  | .restart => sys.restart parse

/-- The system after the events, from a first start without a state file. -/
def after (serverRules : Int → RecurringRule) (events : List AdoptionEvent) :
    AdoptionSystem Text :=
  events.foldl (next dump parse) { state := { server := { rules := serverRules } } }

end AdoptionSystem

/-- The ids the first cycle finds to tag. -/
def initialPending : List AdoptionEvent → List Int
  | [] => []
  | .cycle given :: _ => (evaluateInitialAdoption given.rules given.now).pending
  | .restart :: events => initialPending events

/-- Every cycle reads rules whose ids are positive and fit `int`. -/
def ValidIds (events : List AdoptionEvent) : Prop :=
  ∀ given, .cycle given ∈ events → ∀ rule ∈ given.rules, 0 < rule.id ∧ rule.id ≤ intMax

/-! ## the code points of a name -/

/-- The code points of a UTF-8 string: its bytes that continue none. -/
def codePointCount (name : ByteString) : Nat := (name.filter fun b => !isContinuation b).length

theorem codePointCount_append (a b : ByteString) :
    codePointCount (a ++ b) = codePointCount a + codePointCount b := by
  simp [codePointCount]

theorem codePointCount_spacedTag : codePointCount spacedTag = 7 := by decide

/-- The tag fits exactly when the name leaves room for it. -/
theorem codePointCount_addManagedRuleMarker {name : ByteString}
    (h : isManagedRuleName name = false) :
    codePointCount (addManagedRuleMarker name) ≤ maxRuleNameCharacters ↔
      codePointCount name + 7 ≤ maxRuleNameCharacters := by
  simp only [addManagedRuleMarker, h, Bool.false_eq_true, if_false]
  cases name with
  | nil => decide
  | cons b rest =>
      simp only [List.isEmpty_cons, Bool.false_eq_true, if_false]
      rw [codePointCount_append, codePointCount_spacedTag]

end DispatcharrPvr
