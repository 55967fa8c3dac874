import Mathlib.Tactic.TypeStar

/-!
# Labelled transition systems

A system is a relation `step s a t`: in state `s` the label `a` can lead to `t`.  A `Run` is a
finite history, newest label last.  What one step preserves every run preserves
(`Run.invariant`), and a run whose steps all satisfy a further condition is a run of the
restricted system (`Guarded`).  A system given by a function makes the run its labels name whenever
each of them is enabled in its turn (`Along.run`), which can be computed.
-/

namespace TransitionSystem

variable {σ α : Type*} {step step' : σ → α → σ → Prop} {s t u : σ} {as bs : List α}

/-- The labels `as`, in order, lead from `s` to `t`. -/
inductive Run (step : σ → α → σ → Prop) (s : σ) : List α → σ → Prop
  | nil : Run step s [] s
  | snoc {as : List α} {t u : σ} {a : α} :
      Run step s as t → step t a u → Run step s (as ++ [a]) u

/-- The steps taken in a state where `G` allows the label. -/
def Guarded (step : σ → α → σ → Prop) (G : σ → α → Prop) (s : σ) (a : α) (t : σ) : Prop :=
  step s a t ∧ G s a

/-- A property that every step preserves holds wherever a run leads. -/
theorem Run.invariant {P : σ → Prop} (hstep : ∀ s a t, P s → step s a t → P t) (hs : P s)
    (h : Run step s as t) : P t := by
  induction h with
  | nil => exact hs
  | snoc _ hlast ih => exact hstep _ _ _ ih hlast

theorem Run.mono (hstep : ∀ s a t, step s a t → step' s a t) (h : Run step s as t) :
    Run step' s as t := by
  induction h with
  | nil => exact .nil
  | snoc _ hlast ih => exact ih.snoc (hstep _ _ _ hlast)

theorem Run.cons {a : α} (hfirst : step s a t) (h : Run step t as u) : Run step s (a :: as) u := by
  induction h with
  | nil => exact Run.nil.snoc hfirst
  | snoc _ hlast ih => exact ih.snoc hlast

/-! ### Systems given by a function -/

/-- The steps of `next` that are enabled. -/
def Steps (enabled : σ → α → Prop) (next : σ → α → σ) (s : σ) (a : α) (t : σ) : Prop :=
  enabled s a ∧ t = next s a

/-- Each label is enabled in the state the labels before it lead to. -/
def Along (enabled : σ → α → Prop) (next : σ → α → σ) : σ → List α → Prop
  | _, [] => True
  | s, a :: as => enabled s a ∧ Along enabled next (next s a) as

instance Along.decidable (enabled : σ → α → Prop) (next : σ → α → σ)
    [∀ s a, Decidable (enabled s a)] : ∀ s as, Decidable (Along enabled next s as)
  | _, [] => inferInstanceAs (Decidable True)
  | s, a :: as =>
      have := Along.decidable enabled next (next s a) as
      inferInstanceAs (Decidable (enabled s a ∧ Along enabled next (next s a) as))

variable {enabled : σ → α → Prop} {next : σ → α → σ}

theorem Along.run (h : Along enabled next s as) :
    Run (Steps enabled next) s as (as.foldl next s) := by
  induction as generalizing s with
  | nil => exact .nil
  | cons a as ih => exact .cons ⟨h.1, rfl⟩ (ih h.2)

/-- A run of a restricted system. -/
theorem Along.guarded {G : σ → α → Prop}
    (h : Along (fun s a => enabled s a ∧ G s a) next s as) :
    Run (Guarded (Steps enabled next) G) s as (as.foldl next s) :=
  h.run.mono fun _ _ _ hstep => ⟨⟨hstep.1.1, hstep.2⟩, hstep.1.2⟩

/-- Each step leads to a state with a property exactly when all the states along the run have it. -/
theorem along_iff_states {P : σ → Prop} (hs : P s) :
    Along (fun s a => P (next s a)) next s as ↔ ∀ bs, bs <+: as → P (bs.foldl next s) := by
  induction as generalizing s with
  | nil =>
      refine iff_of_true trivial fun bs hbs => ?_
      rw [List.prefix_nil.1 hbs]
      exact hs
  | cons a as ih =>
      constructor
      · rintro ⟨hfirst, hrest⟩ bs hbs
        rcases List.prefix_cons_iff.1 hbs with rfl | ⟨bs', rfl, hbs'⟩
        · exact hs
        · exact (ih hfirst).1 hrest bs' hbs'
      · intro hall
        have hfirst : P (next s a) := hall [a] (by simp)
        refine ⟨hfirst, (ih hfirst).2 fun bs hbs => ?_⟩
        exact hall (a :: bs) (List.cons_prefix_cons.2 ⟨rfl, hbs⟩)

/-- Two conditions on the steps agree along a run when they agree wherever an invariant holds and
either condition, met, keeps the invariant. -/
theorem Along.congr {P : σ → Prop} {enabled' : σ → α → Prop}
    (hiff : ∀ s a, P s → (enabled s a ↔ enabled' s a))
    (hstep : ∀ s a, P s → enabled' s a → P (next s a)) (hs : P s) :
    Along enabled next s as ↔ Along enabled' next s as := by
  induction as generalizing s with
  | nil => exact Iff.rfl
  | cons a as ih =>
      constructor
      · intro h
        have hfirst := (hiff s a hs).1 h.1
        exact ⟨hfirst, (ih (hstep s a hs hfirst)).1 h.2⟩
      · intro h
        exact ⟨(hiff s a hs).2 h.1, (ih (hstep s a hs h.1)).2 h.2⟩

end TransitionSystem
