import Mathlib.Data.List.Induction
import Mathlib.Logic.Function.Basic

/-!
# Undoing a change with a snapshot

A store holds a value, which anybody may patch.  A change that can be undone saves the value it
finds, and undoing it puts that value back, whatever has been patched since.  So it undoes the
change alone exactly when nothing else has had an effect in between (`undo_iff`): whenever it is
undone, if and only if each other action is idle on the value the change found (`undo_along_iff`).
-/

namespace Snapshot

variable {α μ : Type*}

structure Store (μ α : Type*) where
  data : Option α
  /-- What each change found. -/
  saved : μ → Option α

inductive Action (μ α : Type*) where
  | change (m : μ) (f : α → α)
  | undo (m : μ)
  | patch (f : α → α)
  | keep

/-- The action is the change `m`. -/
def Action.Begins (m : μ) : Action μ α → Prop
  | .change m' _ => m' = m
  | _ => False

variable [DecidableEq μ] (base : α)

/-- Changes and patches start from `base` when there is no value, and a change that found none
cannot be undone. -/
def Store.next (s : Store μ α) : Action μ α → Store μ α
  | .change m f => ⟨some (f (s.data.getD base)), Function.update s.saved m s.data⟩
  | .undo m => { s with data := (s.saved m).or s.data }
  | .patch f => { s with data := some (f (s.data.getD base)) }
  | .keep => s

def Store.run (s : Store μ α) (as : List (Action μ α)) : Store μ α := as.foldl (Store.next base) s

variable {base} {s : Store μ α} {m : μ} {as : List (Action μ α)}

theorem Store.run_append (s : Store μ α) (as bs : List (Action μ α)) :
    s.run base (as ++ bs) = (s.run base as).run base bs := List.foldl_append

/-- Every value of the store, the saved ones included, satisfies `P`. -/
structure Store.All (P : α → Prop) (s : Store μ α) : Prop where
  data : ∀ a ∈ s.data, P a
  saved : ∀ m, ∀ a ∈ s.saved m, P a

/-- What the action writes satisfies `P` if what it finds does. -/
def Action.Keeps (P : α → Prop) : Action μ α → Prop
  | .change _ f => ∀ a, P a → P (f a)
  | .patch f => ∀ a, P a → P (f a)
  | _ => True

omit [DecidableEq μ] in
theorem Store.All.getD {P : α → Prop} (hbase : P base) (h : s.All P) : P (s.data.getD base) := by
  cases hdata : s.data with
  | none => exact hbase
  | some a => exact h.data a hdata

theorem Store.All.next {P : α → Prop} (hbase : P base) (h : s.All P) {a : Action μ α}
    (ha : a.Keeps P) : (s.next base a).All P := by
  cases a with
  | change m f =>
      refine ⟨fun b hb => ?_, fun m' b hb => ?_⟩
      · obtain rfl := Option.some.inj hb
        exact ha _ (h.getD hbase)
      · change b ∈ Function.update s.saved m s.data m' at hb
        by_cases hm : m' = m
        · subst hm
          rw [Function.update_self] at hb
          exact h.data b hb
        · rw [Function.update_of_ne hm] at hb
          exact h.saved m' b hb
  | undo m =>
      refine ⟨fun b hb => ?_, h.saved⟩
      rcases Option.or_eq_some_iff.1 hb with hb | ⟨-, hb⟩
      · exact h.saved m b hb
      · exact h.data b hb
  | patch f =>
      refine ⟨fun b hb => ?_, h.saved⟩
      obtain rfl := Option.some.inj hb
      exact ha _ (h.getD hbase)
  | keep => exact h

/-- A snapshot is there until the change is made again. -/
theorem Store.saved_run (h : ∀ a ∈ as, ¬a.Begins m) : (s.run base as).saved m = s.saved m := by
  induction as generalizing s with
  | nil => rfl
  | cons a as ih =>
      obtain ⟨ha, has⟩ := List.forall_mem_cons.1 h
      refine (ih (s := s.next base a) has).trans ?_
      cases a with
      | change m' f => exact Function.update_of_ne (fun heq => ha heq.symm) ..
      | undo m' => rfl
      | patch f => rfl
      | keep => rfl

/-- Nothing takes the value away. -/
theorem Store.isSome_run (h : s.data.isSome = true) : (s.run base as).data.isSome = true := by
  induction as generalizing s with
  | nil => exact h
  | cons a as ih =>
      refine ih (s := s.next base a) ?_
      cases a with
      | change m' f => rfl
      | undo m' => exact (Option.isSome_or ..).trans (by rw [h, Bool.or_true])
      | patch f => rfl
      | keep => exact h

/-- **Undoing puts back what the change found.** -/
theorem Store.undo_data (hdata : s.data.isSome = true) {f : α → α} (h : ∀ a ∈ as, ¬a.Begins m) :
    (s.run base (.change m f :: as ++ [.undo m])).data = s.data := by
  obtain ⟨a, ha⟩ := Option.isSome_iff_exists.1 hdata
  have hsaved : ((s.next base (.change m f)).run base as).saved m = s.data :=
    (Store.saved_run h).trans (Function.update_self ..)
  have hlast : (s.run base (.change m f :: as ++ [.undo m])).data =
      (((s.next base (.change m f)).run base as).saved m).or
        ((s.next base (.change m f)).run base as).data := by
    rw [Store.run_append]
    rfl
  rw [hlast, hsaved, ha]
  rfl

/-- **When undoing undoes the change alone**: exactly when the other actions, without the change,
leave the value that the change found. -/
theorem Store.undo_iff (hdata : s.data.isSome = true) {f : α → α} (h : ∀ a ∈ as, ¬a.Begins m) :
    (s.run base (.change m f :: as ++ [.undo m])).data = (s.run base as).data ↔
      (s.run base as).data = s.data := by
  rw [Store.undo_data hdata h]
  exact eq_comm

/-! ### Idle actions -/

/-- The action leaves the value of `s` as it is, after actions that have. -/
def Action.Idle (base : α) (s : Store μ α) (since : List (Action μ α)) : Action μ α → Prop
  | .change _ f => f (s.data.getD base) = s.data.getD base
  -- the change has found the same value if it was made since
  | .undo m => (∃ a ∈ since, a.Begins m) ∨ ∀ v ∈ s.saved m, s.data = some v
  | .patch f => f (s.data.getD base) = s.data.getD base
  | .keep => True

/-- As long as the value stays, every snapshot that is taken is of it. -/
theorem Store.saved_of_begun (hkept : ∀ soFar, soFar <+: as → (s.run base soFar).data = s.data)
    (h : ∃ a ∈ as, a.Begins m) : (s.run base as).saved m = s.data := by
  induction as using List.reverseRecOn with
  | nil =>
      obtain ⟨a, ha, -⟩ := h
      cases ha
  | append_singleton as a ih =>
      have hbefore : ∀ soFar, soFar <+: as → (s.run base soFar).data = s.data := fun soFar hp =>
        hkept soFar (hp.trans (List.prefix_append as [a]))
      have hrun : s.run base (as ++ [a]) = (s.run base as).next base a := by
        rw [Store.run_append]
        rfl
      rw [hrun]
      by_cases ha : a.Begins m
      · cases a with
        | change m' f =>
            obtain rfl : m' = m := ha
            exact (Function.update_self ..).trans (hbefore as (List.prefix_refl as))
        | _ => exact ha.elim
      · have hbegun : ∃ b ∈ as, b.Begins m := by
          obtain ⟨b, hb, hbegins⟩ := h
          rcases List.mem_append.1 hb with hb | hb
          · exact ⟨b, hb, hbegins⟩
          · exact absurd (List.mem_singleton.1 hb ▸ hbegins) ha
        refine Eq.trans ?_ (ih hbefore hbegun)
        cases a with
        | change m' f => exact Function.update_of_ne (fun heq => ha heq.symm) ..
        | undo m' => rfl
        | patch f => rfl
        | keep => rfl

/-- **One more action.** -/
theorem Store.next_data_iff (hdata : s.data.isSome = true)
    (hkept : ∀ soFar, soFar <+: as → (s.run base soFar).data = s.data) {a : Action μ α} :
    ((s.run base as).next base a).data = s.data ↔ a.Idle base s as := by
  have hnow : (s.run base as).data = s.data := hkept as (List.prefix_refl as)
  obtain ⟨v, hv⟩ := Option.isSome_iff_exists.1 hdata
  cases a with
  | change m f =>
      show some (f ((s.run base as).data.getD base)) = s.data ↔
        f (s.data.getD base) = s.data.getD base
      rw [hnow, hv]
      exact Option.some_inj
  | patch f =>
      show some (f ((s.run base as).data.getD base)) = s.data ↔
        f (s.data.getD base) = s.data.getD base
      rw [hnow, hv]
      exact Option.some_inj
  | undo m =>
      show ((s.run base as).saved m).or (s.run base as).data = s.data ↔
        (∃ a ∈ as, a.Begins m) ∨ ∀ v ∈ s.saved m, s.data = some v
      rw [hnow]
      by_cases hbegun : ∃ a ∈ as, a.Begins m
      · rw [Store.saved_of_begun hkept hbegun, hv]
        exact iff_of_true rfl (.inl hbegun)
      · have hnone : ∀ a ∈ as, ¬a.Begins m := fun a ha hbegins => hbegun ⟨a, ha, hbegins⟩
        rw [Store.saved_run hnone, or_iff_right hbegun]
        cases s.saved m with
        | none => simp
        | some u => simpa using eq_comm
  | keep => exact iff_of_true hnow trivial

/-- **When the value stays all along.** -/
theorem Store.run_data_iff (hdata : s.data.isSome = true) :
    (∀ soFar, soFar <+: as → (s.run base soFar).data = s.data) ↔
      ∀ soFar a, soFar ++ [a] <+: as → a.Idle base s soFar := by
  constructor
  · intro hkept soFar a hp
    have hbefore : ∀ l, l <+: soFar → (s.run base l).data = s.data := fun l hl =>
      hkept l (hl.trans ((List.prefix_append soFar [a]).trans hp))
    have hafter := hkept _ hp
    rw [Store.run_append] at hafter
    exact (Store.next_data_iff hdata hbefore).1 hafter
  · intro hidle
    induction as using List.reverseRecOn with
    | nil =>
        intro soFar hp
        rw [List.prefix_nil.1 hp]
        rfl
    | append_singleton as a ih =>
        have hbefore : ∀ soFar, soFar <+: as → (s.run base soFar).data = s.data :=
          ih fun soFar b hp => hidle soFar b (hp.trans (List.prefix_append as [a]))
        intro soFar hp
        rcases List.prefix_concat_iff.1 hp with rfl | hp
        · rw [Store.run_append]
          exact (Store.next_data_iff hdata hbefore).2 (hidle as a (List.prefix_refl _))
        · exact hbefore soFar hp

/-- **When a change can be undone alone at any time**: exactly when every other action is idle on
the value the change has found. -/
theorem Store.undo_along_iff (base : α) (hdata : s.data.isSome = true) {f : α → α}
    (h : ∀ a ∈ as, ¬a.Begins m) :
    (∀ soFar, soFar <+: as →
      (s.run base (.change m f :: soFar ++ [.undo m])).data = (s.run base soFar).data) ↔
      ∀ soFar a, soFar ++ [a] <+: as → a.Idle base s soFar := by
  rw [← Store.run_data_iff hdata]
  exact forall₂_congr fun soFar hp => Store.undo_iff hdata fun a ha => h a (hp.subset ha)

end Snapshot
