/-!
# Lib.Runs

Runs of a partial labelled step function `step : σ → ε → Option σ`, where
`none` means that the event is not enabled in that state.  `run` threads a
list of events; `Meets` says that every step of a run satisfies a side
condition in the state it is taken from.

The rules below package each induction over a run once:

* `invariant` / `invariant_of_meets` — what every step keeps, every run keeps;
* `length_le_of_variant` — what every step uses up bounds the length of a run;
* `meets_iff` — when every other step breaks the invariant, that it holds in
  every state of a run says exactly that every step meets the condition
  (`meets_iff_within` asks that only of states where another invariant holds);
* `simulates` — runs of one step function are runs of another, and
  `foldl_labels`, where the steps that count say which step of the other they
  are;
* `foldl_history` — the invariant rule for a total step function, where the
  invariant may speak of the events so far.

This module depends only on the Lean 4 core library.
-/

namespace Runs

universe u v w x

variable {σ : Type u} {ε : Type v} {τ : Type w} {δ : Type x}

/-- The state after the events `es`, or `none` as soon as one of them is not
enabled. -/
def run (step : σ → ε → Option σ) : σ → List ε → Option σ
  | s, [] => some s
  | s, e :: es => (step s e).bind fun s' => run step s' es

/-- Every step of the run of `es` from `s` meets `C` in the state it is taken
from. -/
def Meets (step : σ → ε → Option σ) (C : σ → ε → Prop) : σ → List ε → Prop
  | _, [] => True
  | s, e :: es => C s e ∧ ∀ s', step s e = some s' → Meets step C s' es

variable {step : σ → ε → Option σ}

instance decidableMeets {C : σ → ε → Prop} [∀ s e, Decidable (C s e)] :
    (s : σ) → (es : List ε) → Decidable (Meets step C s es)
  | _, [] => .isTrue trivial
  | s, e :: es =>
      let _ : DecidablePred fun s' => Meets step C s' es := fun s' => decidableMeets s' es
      inferInstanceAs (Decidable (C s e ∧ ∀ s' ∈ step s e, Meets step C s' es))

/-- What the events of a run are labelled with, in their order; an event may have
no label. -/
def labels (step : σ → ε → Option σ) (label : σ → ε → Option δ) : σ → List ε → List δ
  | _, [] => []
  | s, e :: es =>
      (label s e).toList ++ (step s e).elim [] fun s' => labels step label s' es

@[simp] theorem run_nil (s : σ) : run step s [] = some s := rfl

theorem run_cons_eq_some_iff {s s' : σ} {e : ε} {es : List ε} :
    run step s (e :: es) = some s' ↔ ∃ m, step s e = some m ∧ run step m es = some s' := by
  simp [run, Option.bind_eq_some_iff]

/-- A run of an append goes through a state between the two parts. -/
theorem run_append_eq_some_iff {s s' : σ} {es fs : List ε} :
    run step s (es ++ fs) = some s' ↔ ∃ m, run step s es = some m ∧ run step m fs = some s' := by
  induction es generalizing s with
  | nil => simp
  | cons e es ih =>
      simp only [List.cons_append, run_cons_eq_some_iff, ih]
      constructor
      · rintro ⟨m, hm, k, hk, hs'⟩; exact ⟨k, ⟨m, hm, hk⟩, hs'⟩
      · rintro ⟨k, ⟨m, hm, hk⟩, hs'⟩; exact ⟨m, hm, k, hk, hs'⟩

theorem run_concat_eq_some_iff {s s' : σ} {es : List ε} {e : ε} :
    run step s (es ++ [e]) = some s' ↔ ∃ m, run step s es = some m ∧ step m e = some s' := by
  simp [run_append_eq_some_iff, run]

theorem Meets.mono {C C' : σ → ε → Prop} (hC : ∀ s e, C s e → C' s e) {s : σ} {es : List ε}
    (h : Meets step C s es) : Meets step C' s es := by
  induction es generalizing s with
  | nil => trivial
  | cons e es ih => exact ⟨hC s e h.1, fun s' hs' => ih (h.2 s' hs')⟩

/-- What each of two conditions asks of every step. -/
theorem Meets.and {C C' : σ → ε → Prop} {s : σ} {es : List ε} (h : Meets step C s es)
    (h' : Meets step C' s es) : Meets step (fun s e => C s e ∧ C' s e) s es := by
  induction es generalizing s with
  | nil => trivial
  | cons e es ih => exact ⟨⟨h.1, h'.1⟩, fun s' hs' => ih (h.2 s' hs') (h'.2 s' hs')⟩

/-- A run whose steps meet `C` splits into two such runs. -/
theorem Meets.append {C : σ → ε → Prop} {s m : σ} {es fs : List ε}
    (h : Meets step C s (es ++ fs)) (hm : run step s es = some m) :
    Meets step C s es ∧ Meets step C m fs := by
  induction es generalizing s with
  | nil => simp only [run_nil, Option.some.injEq] at hm; subst hm; exact ⟨trivial, h⟩
  | cons e es ih =>
      obtain ⟨k, hk, hrun⟩ := run_cons_eq_some_iff.mp hm
      refine ⟨⟨h.1, fun s' hs' => ?_⟩, (ih (h.2 k hk) hrun).2⟩
      obtain rfl : s' = k := Option.some.inj (hs'.symm.trans hk)
      exact (ih (h.2 s' hk) hrun).1

/-- The labels of a run, and those of what comes behind it. -/
theorem labels_append {label : σ → ε → Option δ} {s m : σ} {es fs : List ε}
    (hrun : run step s es = some m) :
    labels step label s (es ++ fs) = labels step label s es ++ labels step label m fs := by
  induction es generalizing s with
  | nil => simp only [run_nil, Option.some.injEq] at hrun; simp [hrun, labels]
  | cons e es ih =>
      obtain ⟨k, hk, hrun⟩ := run_cons_eq_some_iff.mp hrun
      simp [labels, hk, ih hrun]

/-- An event has one label at most. -/
theorem length_labels_le (label : σ → ε → Option δ) (s : σ) (es : List ε) :
    (labels step label s es).length ≤ es.length := by
  induction es generalizing s with
  | nil => exact Nat.le_refl _
  | cons e es ih =>
      have hone : (label s e).toList.length ≤ 1 := by cases label s e <;> simp
      have hrest : ((step s e).elim [] fun s' => labels step label s' es).length ≤ es.length := by
        cases step s e with
        | none => exact Nat.zero_le _
        | some s' => exact ih s'
      simp only [labels, List.length_append, List.length_cons]
      omega

/-! ## the induction rules -/

/-- **Invariant rule, conditional form**: what every step meeting `C` keeps,
every run whose steps meet `C` keeps. -/
theorem invariant_of_meets {C : σ → ε → Prop} {I : σ → Prop}
    (hstep : ∀ {s e s'}, I s → C s e → step s e = some s' → I s')
    {s s' : σ} {es : List ε} (hI : I s) (hC : Meets step C s es)
    (hrun : run step s es = some s') : I s' := by
  induction es generalizing s with
  | nil => simp only [run_nil, Option.some.injEq] at hrun; exact hrun ▸ hI
  | cons e es ih =>
      obtain ⟨m, hm, hrun⟩ := run_cons_eq_some_iff.mp hrun
      exact ih (hstep hI hC.1 hm) (hC.2 m hm) hrun

/-- **Invariant rule**: what every step keeps, every run keeps. -/
theorem invariant {I : σ → Prop} (hstep : ∀ {s e s'}, I s → step s e = some s' → I s')
    {s s' : σ} {es : List ε} (hI : I s) (hrun : run step s es = some s') : I s' := by
  have hC : ∀ (es : List ε) (s : σ), Meets step (fun _ _ => True) s es := by
    intro es
    induction es with
    | nil => exact fun _ => trivial
    | cons e es ih => exact fun s => ⟨trivial, fun s' _ => ih s'⟩
  exact invariant_of_meets (fun h _ hs => hstep h hs) hI (hC es s) hrun

/-- **Variant rule**: a run is no longer than what every step uses up allows. -/
theorem length_le_of_variant {I : σ → Prop} {left : σ → Nat}
    (hstep : ∀ {s e s'}, I s → step s e = some s' → I s' ∧ left s' < left s)
    {s s' : σ} {es : List ε} (hI : I s) (hrun : run step s es = some s') :
    es.length + left s' ≤ left s := by
  induction es generalizing s with
  | nil => simp only [run_nil, Option.some.injEq] at hrun; simp [hrun]
  | cons e es ih =>
      obtain ⟨m, hm, hrun⟩ := run_cons_eq_some_iff.mp hrun
      obtain ⟨hIm, hlt⟩ := hstep hI hm
      have hrest := ih hIm hrun
      rw [List.length_cons]
      omega

/-- **Exact condition rule**: when every step meeting `C` keeps `I` and every
other step breaks it, the steps of a run meet `C` exactly when `I` holds in
every state the run goes through. -/
theorem meets_iff {C : σ → ε → Prop} {I : σ → Prop}
    (hstep : ∀ {s e s'}, I s → C s e → step s e = some s' → I s')
    (hbreak : ∀ {s e s'}, I s → ¬ C s e → step s e = some s' → ¬ I s')
    {s s' : σ} {es : List ε} (hI : I s) (hrun : run step s es = some s') :
    Meets step C s es ↔ ∀ ps m, ps <+: es → run step s ps = some m → I m := by
  constructor
  · intro hC ps m ⟨fs, hes⟩ hm
    subst hes
    exact invariant_of_meets hstep hI (hC.append hm).1 hm
  · intro hall
    induction es generalizing s with
    | nil => trivial
    | cons e es ih =>
        obtain ⟨k, hk, hrun⟩ := run_cons_eq_some_iff.mp hrun
        have hIk : I k := by
          refine hall [e] k ⟨es, rfl⟩ ?_
          rw [run_cons_eq_some_iff]
          exact ⟨k, hk, rfl⟩
        refine ⟨Classical.byContradiction fun hC => hbreak hI hC hk hIk, fun k' hk' => ?_⟩
        obtain rfl : k' = k := Option.some.inj (hk'.symm.trans hk)
        refine ih hIk hrun fun ps m ⟨fs, hes⟩ hm => hall (e :: ps) m ⟨fs, ?_⟩ ?_
        · rw [← hes]; rfl
        · exact run_cons_eq_some_iff.mpr ⟨k', hk', hm⟩

/-- **Exact condition rule, within an invariant**: as `meets_iff`, where every
step keeps `J` and what it does to `I` is asked only inside `J`. -/
theorem meets_iff_within {C : σ → ε → Prop} {I J : σ → Prop}
    (hkeep : ∀ {s e s'}, J s → step s e = some s' → J s')
    (hstep : ∀ {s e s'}, J s → I s → C s e → step s e = some s' → I s')
    (hbreak : ∀ {s e s'}, J s → I s → ¬ C s e → step s e = some s' → ¬ I s')
    {s s' : σ} {es : List ε} (hJ : J s) (hI : I s) (hrun : run step s es = some s') :
    Meets step C s es ↔ ∀ ps m, ps <+: es → run step s ps = some m → I m := by
  rw [meets_iff (I := fun s => J s ∧ I s) (fun h hC hs => ⟨hkeep h.1 hs, hstep h.1 h.2 hC hs⟩)
    (fun h hC hs hI => hbreak h.1 h.2 hC hs hI.2) ⟨hJ, hI⟩ hrun]
  constructor
  · exact fun h ps m hps hm => (h ps m hps hm).2
  · exact fun h ps m hps hm => ⟨invariant hkeep hJ hm, h ps m hps hm⟩

/-- **Simulation rule**: when each step of one system is a run of another
through `f`, so is each run. -/
theorem simulates {step' : τ → δ → Option τ} (f : σ → τ)
    (hsim : ∀ {s e s'}, step s e = some s' → ∃ ds, run step' (f s) ds = some (f s'))
    {s s' : σ} {es : List ε} (hrun : run step s es = some s') :
    ∃ ds, run step' (f s) ds = some (f s') := by
  induction es generalizing s with
  | nil => simp only [run_nil, Option.some.injEq] at hrun; exact ⟨[], by simp [hrun]⟩
  | cons e es ih =>
      obtain ⟨m, hm, hrun⟩ := run_cons_eq_some_iff.mp hrun
      obtain ⟨ds, hds⟩ := hsim hm
      obtain ⟨ds', hds'⟩ := ih hrun
      exact ⟨ds ++ ds', run_append_eq_some_iff.mpr ⟨f m, hds, hds'⟩⟩

/-- **Labelled simulation rule**: when each step of one system is, through `f`, the
step of a total one that its label names, or none where it has no label, a run comes
to what its labels come to one after the other. -/
theorem foldl_labels {C : σ → ε → Prop} {I : σ → Prop} (label : σ → ε → Option δ)
    (next : τ → δ → τ) (f : σ → τ)
    (hstep : ∀ {s e s'}, I s → C s e → step s e = some s' → I s')
    (hsim : ∀ {s e s'}, I s → C s e → step s e = some s' →
      f s' = (label s e).elim (f s) (next (f s)))
    {s s' : σ} {es : List ε} (hI : I s) (hC : Meets step C s es) (hrun : run step s es = some s') :
    (labels step label s es).foldl next (f s) = f s' := by
  induction es generalizing s with
  | nil => simp only [run_nil, Option.some.injEq] at hrun; simp [hrun, labels]
  | cons e es ih =>
      obtain ⟨m, hm, hrun⟩ := run_cons_eq_some_iff.mp hrun
      have hfirst : (label s e).toList.foldl next (f s) = f m := by
        rw [hsim hI hC.1 hm]
        cases label s e <;> rfl
      rw [labels, hm, Option.elim_some, List.foldl_append, hfirst]
      exact ih (hstep hI hC.1 hm) (hC.2 m hm) hrun

/-! ## total step functions -/

/-- **History rule**: what holds of the first state before any event, and is
handed on by every step to the history one event longer, holds of every run. -/
theorem foldl_history {next : σ → ε → σ} {I : List ε → σ → Prop} {s : σ} (hstart : I [] s)
    (hnext : ∀ {es s e}, I es s → I (es ++ [e]) (next s e)) (es : List ε) :
    I es (es.foldl next s) := by
  have hfrom : ∀ (es before : List ε) (s : σ), I before s → I (before ++ es) (es.foldl next s) := by
    intro es
    induction es with
    | nil => intro before s h; simpa using h
    | cons e es ih =>
        intro before s h
        have hmore := ih (before ++ [e]) (next s e) (hnext h)
        simpa using hmore
  simpa using hfrom es [] s hstart

end Runs
