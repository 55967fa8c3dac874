import Mathlib.Data.List.Basic

/-!
# Histories

A system `next` leaves a history: what `f` says about each of its steps, in order.  What holds of
the state and the empty history at the start, and is kept by every step that adds to both, holds of
the state and its history (`history_invariant`); so a view of the state that a step changes by what
`f` says about it can be computed from the history alone (`view_of_history`).
-/

namespace TransitionSystem

variable {σ α β ν : Type*} (next : σ → α → σ) (f : σ → α → List β)

/-- What `f` says about the steps `as` from `s` on. -/
def history : σ → List α → List β
  | _, [] => []
  | s, a :: as => f s a ++ history (next s a) as

variable {next f}

/-- **The state and its history.** -/
theorem history_invariant {P : σ → List β → Prop}
    (hstep : ∀ s bs a, P s bs → P (next s a) (bs ++ f s a)) {s : σ} (hs : P s []) (as : List α) :
    P (as.foldl next s) (history next f s as) := by
  have hfrom : ∀ (as : List α) (s : σ) (bs : List β), P s bs →
      P (as.foldl next s) (bs ++ history next f s as) := by
    intro as
    induction as with
    | nil => exact fun s bs h => by rwa [history, List.append_nil]
    | cons a as ih =>
        intro s bs h
        rw [history, ← List.append_assoc]
        exact ih (next s a) _ (hstep s bs a h)
  exact hfrom as s [] hs

/-- A view that steps change by what is said about them. -/
theorem view_of_history {view : σ → ν} {apply : ν → β → ν}
    (hstep : ∀ s a, view (next s a) = (f s a).foldl apply (view s)) (s : σ) (as : List α) :
    view (as.foldl next s) = (history next f s as).foldl apply (view s) :=
  history_invariant (P := fun t bs => view t = bs.foldl apply (view s))
    (fun t bs a h => by rw [hstep, List.foldl_append, h]) rfl as

end TransitionSystem
