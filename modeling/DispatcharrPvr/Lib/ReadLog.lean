/-!
# Lib.ReadLog

What a reader of a content has done: it hands over items and moves past them,
or it jumps.  A log is faithful to a content when every item handed over is the
one the content has where the reader was.  A delivery names the call it is for.

* `faithful_append`, `Faithful.mono` — how logs and contents grow;
* `Shows.append`, `Faithful.stretch` — what is handed over between two jumps is
  one stretch of the content;
* `mem_deliveriesTo_iff`, `Faithful.delivery` — what is handed over to one call;
* `shows_getElem?_iff` — where the content is a list, it is a slice of it.

This module depends only on the Lean 4 core library.
-/

namespace ReadLog

universe u v

variable {ι : Type v} {α : Type u}

/-- One move of a reader. -/
inductive Move (ι : Type v) (α : Type u) where
  | jump (position : Int)
  | deliver (call : ι) (items : List α)
deriving DecidableEq, Repr

/-- Where the moves lead from `pos`. -/
def endOf (pos : Int) : List (Move ι α) → Int
  | [] => pos
  | .jump position :: moves => endOf position moves
  | .deliver _ items :: moves => endOf (pos + items.length) moves

/-- The content has these items, from `pos` on. -/
def Shows (content : Int → Option α) (pos : Int) (items : List α) : Prop :=
  ∀ (i : Nat) (a : α), items[i]? = some a → content (pos + i) = some a

/-- Every item handed over is the content's. -/
def Faithful (content : Int → Option α) (pos : Int) : List (Move ι α) → Prop
  | [] => True
  | .jump position :: moves => Faithful content position moves
  | .deliver _ items :: moves =>
      Shows content pos items ∧ Faithful content (pos + items.length) moves

/-- What is handed over. -/
def delivered : List (Move ι α) → List α
  | [] => []
  | .jump _ :: moves => delivered moves
  | .deliver _ items :: moves => items ++ delivered moves

/-- What is handed over to one call, each time. -/
def deliveriesTo [DecidableEq ι] (call : ι) (moves : List (Move ι α)) : List (List α) :=
  moves.flatMap fun
    | .jump _ => []
    | .deliver caller items => if caller = call then [items] else []

/-- What a read may hand back, by what was handed over to it: that, with its length,
or nothing at all. -/
def HandsBack (deliveries : List (List α)) (result : Int) (items : List α) : Prop :=
  deliveries = [items] ∧ result = items.length ∨ deliveries = [] ∧ items = [] ∧ result ≤ 0

/-- No move is a jump. -/
def Straight (moves : List (Move ι α)) : Prop := ∀ position, .jump position ∉ moves

variable {content content' : Int → Option α} {pos : Int} {items more : List α}
  {moves before after : List (Move ι α)}

@[simp] theorem endOf_append :
    endOf pos (before ++ after) = endOf (endOf pos before) after := by
  induction before generalizing pos with
  | nil => rfl
  | cons move before ih => cases move <;> simp [endOf, ih]

theorem faithful_append :
    Faithful content pos (before ++ after) ↔
      Faithful content pos before ∧ Faithful content (endOf pos before) after := by
  induction before generalizing pos with
  | nil => simp [Faithful, endOf]
  | cons move before ih => cases move <;> simp [Faithful, endOf, ih, and_assoc]

section Deliveries

variable [DecidableEq ι] {call : ι}

@[simp] theorem deliveriesTo_nil : deliveriesTo call ([] : List (Move ι α)) = [] := rfl

@[simp] theorem deliveriesTo_append :
    deliveriesTo call (before ++ after) = deliveriesTo call before ++ deliveriesTo call after :=
  List.flatMap_append

@[simp] theorem deliveriesTo_jump (position : Int) :
    deliveriesTo call [(.jump position : Move ι α)] = [] := rfl

@[simp] theorem deliveriesTo_deliver (caller : ι) :
    deliveriesTo call [.deliver caller items] = if caller = call then [items] else [] := by
  simp [deliveriesTo]

theorem mem_deliveriesTo_iff : items ∈ deliveriesTo call moves ↔ .deliver call items ∈ moves := by
  induction moves with
  | nil => simp [deliveriesTo]
  | cons move moves ih =>
      rw [← List.singleton_append, deliveriesTo_append, List.mem_append, ih, List.singleton_append,
        List.mem_cons]
      refine or_congr_left ?_
      cases move with
      | jump position => simp
      | deliver caller given =>
          rw [deliveriesTo_deliver]
          split
          · next heq => simp [heq]
          · next hne => simp [Ne.symm hne]

end Deliveries

/-- Where a delivery stands in a log, it shows what the content has there. -/
theorem Faithful.delivery (h : Faithful content pos moves) {call : ι}
    (hmem : .deliver call items ∈ moves) :
    ∃ before after, moves = before ++ .deliver call items :: after ∧
      Shows content (endOf pos before) items := by
  obtain ⟨before, after, rfl⟩ := List.append_of_mem hmem
  exact ⟨before, after, rfl, (faithful_append.mp h).2.1⟩

theorem shows_nil : Shows content pos [] := by simp [Shows]

theorem Shows.mono (h : Shows content pos items)
    (hmore : ∀ p a, content p = some a → content' p = some a) : Shows content' pos items :=
  fun i a hi => hmore _ a (h i a hi)

/-- What another content shows stays faithful where that content agrees. -/
theorem Faithful.mono (h : Faithful content pos moves)
    (hmore : ∀ p a, content p = some a → content' p = some a) : Faithful content' pos moves := by
  induction moves generalizing pos with
  | nil => trivial
  | cons move moves ih =>
      cases move with
      | jump position => exact ih h
      | deliver call items => exact ⟨h.1.mono hmore, ih h.2⟩

theorem Shows.append (h : Shows content pos items) (h' : Shows content (pos + items.length) more) :
    Shows content pos (items ++ more) := by
  intro i a hi
  by_cases hlt : i < items.length
  · rw [List.getElem?_append_left hlt] at hi
    exact h i a hi
  · rw [List.getElem?_append_right (by omega)] at hi
    have hlater := h' (i - items.length) a hi
    have hpos : pos + items.length + ((i - items.length : Nat) : Int) = pos + i := by omega
    rwa [hpos] at hlater

/-- **Stretches**: without a jump, all that is handed over is one stretch of the
content, and the reader is at its end. -/
theorem Faithful.stretch (h : Faithful content pos moves) (hstraight : Straight moves) :
    Shows content pos (delivered moves) ∧ endOf pos moves = pos + (delivered moves).length := by
  induction moves generalizing pos with
  | nil => exact ⟨shows_nil, by simp [endOf, delivered]⟩
  | cons move moves ih =>
      have hrest : Straight moves := fun position hmem =>
        hstraight position (List.mem_cons_of_mem _ hmem)
      cases move with
      | jump position => exact absurd List.mem_cons_self (hstraight position)
      | deliver call items =>
          obtain ⟨hshows, hend⟩ := ih h.2 hrest
          refine ⟨h.1.append hshows, ?_⟩
          rw [endOf, hend, delivered, List.length_append]
          omega

/-- The same of a part of a log. -/
theorem Faithful.stretch_within (h : Faithful content pos (before ++ moves ++ after))
    (hstraight : Straight moves) :
    Shows content (endOf pos before) (delivered moves) := by
  have hfront := (faithful_append.mp h).1
  exact ((faithful_append.mp hfront).2.stretch hstraight).1

/-- Where the content is a list, what it shows is a slice of it. -/
theorem shows_getElem?_iff {list : List α} {start : Nat} :
    Shows (fun p => if p < 0 then none else list[p.toNat]?) start items ↔
      items = (list.drop start).take items.length := by
  have hat : ∀ i : Nat, (if ((start : Int) + i) < 0 then none else list[((start : Int) + i).toNat]?) =
      list[start + i]? := by
    intro i
    rw [if_neg (by omega)]
    congr 1
  simp only [Shows, hat]
  constructor
  · intro h
    apply List.ext_getElem?
    intro i
    by_cases hi : i < items.length
    · rw [List.getElem?_take_of_lt hi, List.getElem?_drop,
        h i items[i] (List.getElem?_eq_getElem hi), List.getElem?_eq_getElem hi]
    · rw [List.getElem?_eq_none (by omega), List.getElem?_eq_none (by
        rw [List.length_take, List.length_drop]; omega)]
  · intro h i a hi
    obtain ⟨hlt, -⟩ := List.getElem?_eq_some_iff.mp hi
    rw [h, List.getElem?_take_of_lt hlt, List.getElem?_drop] at hi
    exact hi

end ReadLog
