import PmSaas.Lib.TransitionSystem

/-!
# Noninterference by unwinding

An observer sees a state of a system `next` through `view`.  Two histories are `Matched` when they
make the same steps in the same order, except for steps the observer does not see, which each of
them may make on its own.  Three conditions on single steps (`Unwinding`) make the observer see the
same at the end of matched histories (`Unwinding.matched`): an invariant is kept, an unseen step
leaves the view alone, and equal views lead to equal views under the same step.
-/

namespace TransitionSystem

variable {σ α ν : Type*} {next : σ → α → σ} {view : σ → ν} {inv : σ → Prop}
  {allowed unseen : σ → α → Prop} {s s' t t' : σ} {as bs : List α}

/-- Two histories with allowed steps only, which differ in unseen steps. -/
inductive Matched (next : σ → α → σ) (allowed unseen : σ → α → Prop) (s s' : σ) :
    List α → List α → σ → σ → Prop
  | nil : Matched next allowed unseen s s' [] [] s s'
  | both {as bs : List α} {t t' : σ} (a : α) :
      Matched next allowed unseen s s' as bs t t' → allowed t a → allowed t' a →
      Matched next allowed unseen s s' (as ++ [a]) (bs ++ [a]) (next t a) (next t' a)
  | left {as bs : List α} {t t' : σ} (a : α) :
      Matched next allowed unseen s s' as bs t t' → allowed t a → unseen t a →
      Matched next allowed unseen s s' (as ++ [a]) bs (next t a) t'
  | right {as bs : List α} {t t' : σ} (a : α) :
      Matched next allowed unseen s s' as bs t t' → allowed t' a → unseen t' a →
      Matched next allowed unseen s s' as (bs ++ [a]) t (next t' a)

structure Unwinding (next : σ → α → σ) (view : σ → ν) (inv : σ → Prop)
    (allowed unseen : σ → α → Prop) : Prop where
  invariant : ∀ s a, inv s → allowed s a → inv (next s a)
  unseen : ∀ s a, inv s → allowed s a → unseen s a → view (next s a) = view s
  seen : ∀ s s' a, inv s → inv s' → allowed s a → allowed s' a → view s = view s' →
    view (next s a) = view (next s' a)

namespace Unwinding

variable (h : Unwinding next view inv allowed unseen)

include h

/-- **Matched histories look alike.** -/
theorem matched (hs : inv s) (hs' : inv s') (hview : view s = view s')
    (hm : Matched next allowed unseen s s' as bs t t') : inv t ∧ inv t' ∧ view t = view t' := by
  induction hm with
  | nil => exact ⟨hs, hs', hview⟩
  | both a _ hallowed hallowed' ih =>
      obtain ⟨ht, ht', heq⟩ := ih
      exact ⟨h.invariant _ a ht hallowed, h.invariant _ a ht' hallowed',
        h.seen _ _ a ht ht' hallowed hallowed' heq⟩
  | left a _ hallowed hunseen ih =>
      obtain ⟨ht, ht', heq⟩ := ih
      exact ⟨h.invariant _ a ht hallowed, ht', (h.unseen _ a ht hallowed hunseen).trans heq⟩
  | right a _ hallowed hunseen ih =>
      obtain ⟨ht, ht', heq⟩ := ih
      exact ⟨ht, h.invariant _ a ht' hallowed, heq.trans (h.unseen _ a ht' hallowed hunseen).symm⟩

end Unwinding

end TransitionSystem
