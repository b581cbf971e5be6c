/-!
# Lib.Memo

Computations that carry a state along and may give up: a table of the answers
so far, a budget of work, and the like.

* `Sound` — a table of arguments and answers in which every answer is that of
  the function (`Sound.cons` keeps it so);
* `Agrees` — a run that gives what a plain function does unless it gives up.
  Runs compose (`Agrees.bind`), so that a program that threads the state
  through its parts is proved part by part.

This module depends only on the Lean 4 core library.
-/

namespace Memo

universe u v w

/-! ## a table of answers -/

section Table

variable {α : Type u} {β : Type v} [BEq α]

/-- What is found in the table is the answer. -/
def Sound (f : α → β) (table : List (α × β)) : Prop :=
  ∀ a b, table.lookup a = some b → b = f a

theorem Sound.nil (f : α → β) : Sound f [] := by
  intro a b h
  contradiction

theorem Sound.cons [LawfulBEq α] {f : α → β} {table : List (α × β)} (h : Sound f table) (a : α) :
    Sound f ((a, f a) :: table) := by
  intro a' b hlookup
  rw [List.lookup_cons] at hlookup
  split at hlookup
  · next heq =>
      rw [eq_of_beq heq]
      exact (Option.some.inj hlookup).symm
  · exact h a' b hlookup

end Table

/-! ## giving up -/

section Agrees

variable {σ : Type u} {α : Type v} {β : Type w} {Inv : σ → Prop} {gaveUp : σ → Bool}

/-- A run from `state` gave `result`: it keeps the invariant, and the value is
`value` unless the run gave up. -/
structure Agrees (Inv : σ → Prop) (gaveUp : σ → Bool) (state : σ) (result : α × σ) (value : α) :
    Prop where
  inv : Inv result.2
  agrees : gaveUp result.2 = false → gaveUp state = false ∧ result.1 = value

theorem Agrees.pure {state : σ} (h : Inv state) (value : α) :
    Agrees Inv gaveUp state (value, state) value :=
  ⟨h, fun hgaveUp => ⟨hgaveUp, rfl⟩⟩

/-- A run that gave up agrees with anything. -/
theorem Agrees.of_gaveUp {state : σ} {result : α × σ} (h : Inv result.2)
    (hgaveUp : gaveUp result.2 = true) (value : α) : Agrees Inv gaveUp state result value :=
  ⟨h, fun hnot => absurd (hnot.symm.trans hgaveUp) Bool.false_ne_true⟩

/-- One run after the other. -/
theorem Agrees.bind {state : σ} {result : α × σ} {value : α}
    (h : Agrees Inv gaveUp state result value) {result' : β × σ} {f : α → β}
    (h' : Agrees Inv gaveUp result.2 result' (f result.1)) :
    Agrees Inv gaveUp state result' (f value) := by
  refine ⟨h'.inv, fun hgaveUp => ?_⟩
  obtain ⟨hbetween, hvalue'⟩ := h'.agrees hgaveUp
  obtain ⟨hbefore, hvalue⟩ := h.agrees hbetween
  exact ⟨hbefore, hvalue'.trans (congrArg f hvalue)⟩

/-- What is done with the value alone. -/
theorem Agrees.map {state : σ} {result : α × σ} {value : α}
    (h : Agrees Inv gaveUp state result value) (f : α → β) :
    Agrees Inv gaveUp state (f result.1, result.2) (f value) :=
  h.bind (f := f) (.pure h.inv (f result.1))

end Agrees

end Memo
