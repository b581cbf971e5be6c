/-!
# Lib.Resync

Reading arbitrary items as sequences of a self-synchronising code.  A sequence
is an item that leads and items that continue it; no sequence begins another.
Items split into pieces, each a sequence or one item that is part of none:

* `Heads` is what a reader at the front takes, `Ends` what a reader at the back
  takes, and the last piece is what the back reader takes (`Splits.ends`);
* a splitting survives a cut between pieces (`Splits.left`, `Splits.right`), is
  put together again (`Splits.append`), and survives the replacement of pieces
  by sequences (`Splits.map`).

This module depends only on the Lean 4 core library.
-/

namespace Resync

universe u v

/-- A code: the sequences and what they stand for. -/
structure Code (α : Type u) (β : Type v) where
  value : List α → Option β
  continues : α → Bool
  /-- A sequence is a lead and what continues it. -/
  lead : ∀ {w v}, value w = some v → ∃ a rest, w = a :: rest ∧ continues a = false ∧
    ∀ b ∈ rest, continues b = true
  /-- No sequence begins another. -/
  alone : ∀ {w x v v'}, value w = some v → value (w ++ x) = some v' → x = []

/-- A sequence and its value, or an item that is part of none. -/
inductive Piece (α : Type u) (β : Type v) where
  | sequence (w : List α) (v : β)
  | stray (a : α)

variable {α : Type u} {β : Type v}

/-- The items of a piece. -/
def Piece.items : Piece α β → List α
  | sequence w _ => w
  | stray a => [a]

/-- The items of pieces. -/
def items (pieces : List (Piece α β)) : List α := pieces.flatMap Piece.items

@[simp] theorem items_nil : items ([] : List (Piece α β)) = [] := rfl

@[simp] theorem items_cons (p : Piece α β) (pieces : List (Piece α β)) :
    items (p :: pieces) = p.items ++ items pieces := rfl

@[simp] theorem items_append (a b : List (Piece α β)) : items (a ++ b) = items a ++ items b :=
  List.flatMap_append

variable (code : Code α β)

/-- The piece a reader takes at the front. -/
def Piece.Heads (s : List α) : Piece α β → Prop
  | sequence w v => code.value w = some v ∧ w <+: s
  | stray a => s.head? = some a ∧ ∀ w v, code.value w = some v → ¬ w <+: s

/-- The piece a reader takes at the back. -/
def Piece.Ends (s : List α) : Piece α β → Prop
  | sequence w v => code.value w = some v ∧ w <:+ s
  | stray a => s.getLast? = some a ∧ ∀ w v, code.value w = some v → ¬ w <:+ s

/-- The pieces are those the reader at the front takes one after another. -/
def Splits : List (Piece α β) → Prop
  | [] => True
  | p :: pieces => p.Heads code (items (p :: pieces)) ∧ Splits pieces

variable {code}

/-! ## sequences -/

theorem Code.ne_nil {w : List α} {v : β} (h : code.value w = some v) : w ≠ [] := by
  obtain ⟨a, rest, rfl, -⟩ := code.lead h
  exact List.cons_ne_nil a rest

/-- Two sequences at the front of the same items are one. -/
theorem Code.eq_of_prefix {w w' s : List α} {v v' : β} (h : code.value w = some v)
    (h' : code.value w' = some v') (hpre : w <+: s) (hpre' : w' <+: s) : w = w' := by
  obtain ⟨x, rfl⟩ | ⟨x, rfl⟩ := List.prefix_or_prefix_of_prefix hpre hpre'
  · rw [code.alone h h', List.append_nil]
  · rw [code.alone h' h, List.append_nil]

/-! ## heads -/

/-- What continues at the front decides whether an item is stray. -/
theorem Piece.Heads.mono {p : Piece α β} {s t : List α} (h : p.Heads code (p.items ++ s))
    (hle : t.takeWhile code.continues <+: s) : p.Heads code (p.items ++ t) := by
  cases p with
  | sequence w v => exact ⟨h.1, List.prefix_append w t⟩
  | stray a =>
      refine ⟨rfl, ?_⟩
      intro w v hw hpre
      refine h.2 w v hw ?_
      obtain ⟨b, rest, rfl, -, hrest⟩ := code.lead hw
      obtain ⟨rfl, x, rfl⟩ : b = a ∧ rest <+: t := List.cons_prefix_cons.mp hpre
      show b :: rest <+: b :: s
      refine List.cons_prefix_cons.mpr ⟨rfl, ?_⟩
      rw [List.takeWhile_append_of_pos hrest] at hle
      exact (List.prefix_append rest _).trans hle

theorem Piece.Heads.eq {p q : Piece α β} {s : List α} (hp : p.Heads code s)
    (hq : q.Heads code s) : p = q := by
  cases p with
  | sequence w v =>
      cases q with
      | sequence w' v' =>
          obtain rfl := Code.eq_of_prefix hp.1 hq.1 hp.2 hq.2
          rw [Option.some.inj (hp.1.symm.trans hq.1)]
      | stray a => exact absurd hp.2 (hq.2 w v hp.1)
  | stray a =>
      cases q with
      | sequence w v => exact absurd hq.2 (hp.2 w v hq.1)
      | stray b => rw [Option.some.inj (hp.1.symm.trans hq.1)]

/-! ## splittings -/

/-- The pieces behind a cut. -/
theorem Splits.right {a b : List (Piece α β)} (h : Splits code (a ++ b)) : Splits code b := by
  induction a with
  | nil => exact h
  | cons p a ih => exact ih h.2

/-- The pieces before a cut: what is cut off only takes away what continues. -/
theorem Splits.left {a b : List (Piece α β)} (h : Splits code (a ++ b)) : Splits code a := by
  induction a with
  | nil => trivial
  | cons p a ih =>
      refine ⟨h.1.mono ?_, ih h.2⟩
      show (items a).takeWhile _ <+: items (a ++ b)
      rw [items_append]
      exact (List.takeWhile_prefix _).trans (List.prefix_append _ _)

/-- Splittings put together, where the second does not begin with what continues. -/
theorem Splits.append {a b : List (Piece α β)} (ha : Splits code a) (hb : Splits code b)
    (hlead : (items b).takeWhile code.continues = []) : Splits code (a ++ b) := by
  induction a with
  | nil => exact hb
  | cons p a ih =>
      refine ⟨?_, ih ha.2⟩
      refine ha.1.mono ?_
      show (items (a ++ b)).takeWhile code.continues <+: items a
      rw [items_append, List.takeWhile_append]
      split
      · have hsame : items a ++ (items b).takeWhile code.continues = items a := by
          rw [hlead, List.append_nil]
        exact hsame.symm ▸ List.prefix_refl (items a)
      · exact List.takeWhile_prefix _

/-- The sequences of a splitting are sequences. -/
theorem Splits.value_of_mem {pieces : List (Piece α β)} (h : Splits code pieces) {w : List α}
    {v : β} (hmem : .sequence w v ∈ pieces) : code.value w = some v := by
  induction pieces with
  | nil => simp at hmem
  | cons p pieces ih =>
      rw [List.mem_cons] at hmem
      obtain rfl | hmem := hmem
      · exact h.1.1
      · exact ih h.2 hmem

/-- A piece that stays, or becomes a sequence. -/
def StaysOrSequence (code : Code α β) (p q : Piece α β) : Prop :=
  q = p ∨ ∃ w v, q = .sequence w v ∧ code.value w = some v

/-- What continues at the front of the replaced pieces stood there before. -/
theorem takeWhile_items_map {f : Piece α β → Piece α β} {pieces : List (Piece α β)}
    (h : Splits code pieces) (hf : ∀ p ∈ pieces, StaysOrSequence code p (f p)) :
    (items (pieces.map f)).takeWhile code.continues <+: items pieces := by
  induction pieces with
  | nil => exact List.prefix_refl _
  | cons p pieces ih =>
      have hsequence : ∀ w v, code.value w = some v → ∀ s : List α,
          (w ++ s).takeWhile code.continues = [] := by
        intro w v hw s
        obtain ⟨a, rest, rfl, ha, -⟩ := code.lead hw
        rw [List.cons_append, List.takeWhile_cons, ha]
        rfl
      rw [List.map_cons, items_cons, items_cons]
      obtain hstays | ⟨w, v, hbecomes, hw⟩ := hf p (by simp)
      · rw [hstays]
        cases p with
        | sequence w v =>
            rw [Piece.items, hsequence w v h.1.1]
            exact List.nil_prefix
        | stray a =>
            rw [Piece.items, List.singleton_append, List.singleton_append, List.takeWhile_cons]
            split
            · exact List.cons_prefix_cons.mpr
                ⟨rfl, ih h.2 fun q hq => hf q (List.mem_cons_of_mem _ hq)⟩
            · exact List.nil_prefix
      · rw [hbecomes, Piece.items, hsequence w v hw]
        exact List.nil_prefix

/-- Pieces may be replaced by sequences: no stray item becomes part of one. -/
theorem Splits.map {f : Piece α β → Piece α β} {pieces : List (Piece α β)}
    (h : Splits code pieces) (hf : ∀ p ∈ pieces, StaysOrSequence code p (f p)) :
    Splits code (pieces.map f) := by
  induction pieces with
  | nil => trivial
  | cons p pieces ih =>
      have hf' : ∀ q ∈ pieces, StaysOrSequence code q (f q) :=
        fun q hq => hf q (List.mem_cons_of_mem _ hq)
      refine ⟨?_, ih h.2 hf'⟩
      obtain hstays | ⟨w, v, hbecomes, hw⟩ := hf p (by simp)
      · rw [hstays]
        exact h.1.mono (takeWhile_items_map h.2 hf')
      · rw [hbecomes]
        exact ⟨hw, List.prefix_append _ _⟩

/-- Items of a splitting end a piece where the next one leads. -/
theorem Splits.exists_cut {pieces : List (Piece α β)} (h : Splits code pieces)
    {before after : List α} {a : α} (ha : code.continues a = false)
    (heq : items pieces = before ++ a :: after) :
    ∃ l r, pieces = l ++ r ∧ items l = before ∧ items r = a :: after := by
  induction pieces generalizing before with
  | nil => simp at heq
  | cons p pieces ih =>
      cases before with
      | nil => exact ⟨[], p :: pieces, rfl, rfl, heq⟩
      | cons b before =>
          have hp : ∃ c rest, p.items = c :: rest ∧ ∀ d ∈ rest, code.continues d = true := by
            cases p with
            | sequence w v =>
                obtain ⟨c, rest, rfl, -, hrest⟩ := code.lead h.1.1
                exact ⟨c, rest, rfl, hrest⟩
            | stray c => exact ⟨c, [], rfl, by simp⟩
          obtain ⟨c, rest, hitems, hrest⟩ := hp
          rw [items_cons, hitems, List.cons_append, List.cons_append, List.cons.injEq] at heq
          obtain ⟨rfl, heq⟩ := heq
          obtain ⟨before', rfl, hbefore⟩ | ⟨rest', rfl, hafter⟩ := List.append_eq_append_iff.mp heq
          · obtain ⟨l, r, rfl, rfl, hr⟩ := ih h.2 hbefore
            exact ⟨p :: l, r, rfl, by rw [items_cons, hitems, List.cons_append], hr⟩
          · cases rest' with
            | nil =>
                rw [List.nil_append] at hafter
                exact ⟨[p], pieces, rfl, by simp [hitems], hafter.symm⟩
            | cons d rest' =>
                -- the item that leads would continue this piece
                rw [List.cons_append, List.cons.injEq] at hafter
                rw [hafter.1, hrest d (by simp)] at ha
                contradiction

/-- The last piece is what the reader at the back takes. -/
theorem Splits.ends {pieces : List (Piece α β)} {p : Piece α β}
    (h : Splits code (pieces ++ [p])) : p.Ends code (items (pieces ++ [p])) := by
  cases p with
  | sequence w v =>
      refine ⟨h.right.1.1, ?_⟩
      rw [items_append, items_cons, items_nil, List.append_nil]
      exact List.suffix_append _ _
  | stray a =>
      refine ⟨by simp [Piece.items], ?_⟩
      intro w v hw ⟨before, hbefore⟩
      obtain ⟨b, rest, rfl, hb, hrest⟩ := code.lead hw
      obtain ⟨l, r, hpieces, -, hr⟩ := h.exists_cut hb hbefore.symm
      -- a piece begins where the sequence does, and it is that sequence
      rw [hpieces] at h
      cases r with
      | nil => simp at hr
      | cons q r =>
          have hq : q = .sequence (b :: rest) v :=
            h.right.1.eq (q := .sequence (b :: rest) v) ⟨hw, hr ▸ List.prefix_refl _⟩
          subst hq
          have hr : items r = [] := by simpa [Piece.items] using hr
          have hnil : r = [] := by
            cases r with
            | nil => rfl
            | cons q' r =>
                have hempty : q'.items = [] := (List.append_eq_nil_iff.mp hr).1
                cases q' with
                | sequence w' v' => exact absurd hempty (Code.ne_nil h.right.2.1.1)
                | stray c => simp [Piece.items] at hempty
          subst hnil
          have hlast := congrArg List.getLast? hpieces
          simp at hlast

end Resync
