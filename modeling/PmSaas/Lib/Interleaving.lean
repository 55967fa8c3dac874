import Mathlib.Logic.Function.Basic
import PmSaas.Lib.TransitionSystem

/-!
# Threads over a shared store

A `Pool` is any number of threads, each at some point of its program, over one shared store.
`advance` lets one thread make its next atomic step, so a run of the pool is an interleaving of
the threads' steps.
-/

namespace TransitionSystem

variable {ι π σ : Type*}

structure Pool (ι π σ : Type*) where
  store : σ
  thread : ι → π

namespace Pool

variable [DecidableEq ι] (step : π → σ → π × σ) (s : Pool ι π σ) (i : ι)

/-- Thread `i` makes its next step. -/
def advance : Pool ι π σ where
  store := (step (s.thread i) s.store).2
  thread := Function.update s.thread i (step (s.thread i) s.store).1

theorem advance_store : (s.advance step i).store = (step (s.thread i) s.store).2 := rfl

@[simp] theorem advance_thread_self :
    (s.advance step i).thread i = (step (s.thread i) s.store).1 :=
  Function.update_self ..

variable {i}

@[simp] theorem advance_thread_of_ne {j : ι} (h : j ≠ i) :
    (s.advance step i).thread j = s.thread j :=
  Function.update_of_ne h ..

end Pool

end TransitionSystem
