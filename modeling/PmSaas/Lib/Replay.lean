import Mathlib.Data.List.Infix
import Mathlib.Data.List.Basic

/-!
# Replaying the tail of a history on a snapshot

A record of a store goes through changes: it is inserted, replaced, modified in one of its parts, or
deleted.  A replica that missed nothing applies the changes in the order they were made.  A replica
that starts from a snapshot taken in the middle receives changes that the snapshot already
reflects; `Settled` says that applying such a tail again gives the snapshot back, and `Synced` that
applying what has not arrived yet gives the present record.  A snapshot, an arrival and a new change
keep `Synced`, and when nothing is on its way the replica has the record.
-/

namespace Replay

variable {α μ : Type*} (modify : μ → α → α)

/-- One change of a record. -/
inductive Change (α μ : Type*) where
  | insert (a : α)
  | replace (a : α)
  | modify (m : μ)
  | delete

/-- How a replica applies a change: what it has it does not insert, and what it does not have it
neither replaces nor modifies. -/
def Change.apply : Change α μ → Option α → Option α
  | .insert a, none => some a
  | .insert _, some b => some b
  | .replace a, c => c.map fun _ => a
  | .modify m, c => c.map (modify m)
  | .delete, _ => none

/-- The changes that can be made to a record: only an absent one is inserted, only a present one is
replaced, modified or deleted. -/
def Change.Applies : Change α μ → Option α → Prop
  | .insert _, c => c = none
  | _, c => c ≠ none

def replay (c : Option α) (changes : List (Change α μ)) : Option α :=
  changes.foldl (fun c e => e.apply modify c) c

theorem replay_append (c : Option α) (changes changes' : List (Change α μ)) :
    replay modify c (changes ++ changes') = replay modify (replay modify c changes) changes' :=
  List.foldl_append

theorem replay_snoc (c : Option α) (changes : List (Change α μ)) (e : Change α μ) :
    replay modify c (changes ++ [e]) = e.apply modify (replay modify c changes) :=
  replay_append modify c changes [e]

/-- Whether a record is there after a replay depends on whether it was there before. -/
theorem replay_isSome_congr {c d : Option α} (h : c.isSome = d.isSome)
    (changes : List (Change α μ)) :
    (replay modify c changes).isSome = (replay modify d changes).isSome := by
  induction changes generalizing c d with
  | nil => exact h
  | cons e changes ih =>
      refine ih ?_
      cases e with
      | insert a =>
          cases c <;> cases d <;> simp_all [Change.apply]
      | replace a => simpa [Change.apply] using h
      | modify m => simpa [Change.apply] using h
      | delete => rfl

section Parts

variable {modify}

/-- Modifications overwrite parts: what a modification makes equal stays so under every other one,
and a modification made twice is made once. -/
structure Overwrites (modify : μ → α → α) : Prop where
  again : ∀ m a, modify m (modify m a) = modify m a
  compat : ∀ m n a b, modify m a = modify m b → modify m (modify n a) = modify m (modify n b)

/-- Records that differ at most in the part `m` overwrites still do after a replay. -/
theorem replay_modify_congr (h : Overwrites modify) (m : μ) {c d : Option α}
    (hcd : c.map (modify m) = d.map (modify m)) (changes : List (Change α μ)) :
    (replay modify c changes).map (modify m) = (replay modify d changes).map (modify m) := by
  induction changes generalizing c d with
  | nil => exact hcd
  | cons e changes ih =>
      refine ih ?_
      cases c with
      | none =>
          cases d with
          | none => rfl
          | some b => cases hcd
      | some a =>
          cases d with
          | none => cases hcd
          | some b =>
              have hab : modify m a = modify m b := Option.some.inj hcd
              cases e with
              | insert x => exact hcd
              | replace x => rfl
              | modify n => exact congrArg some (h.compat m n a b hab)
              | delete => rfl

end Parts

/-! ### Tails a snapshot already reflects -/

/-- Applying the tail to the record changes nothing, and the tail of an absent record makes every
record absent. -/
structure Settled (record : Option α) (tail : List (Change α μ)) : Prop where
  replays : replay modify record tail = record
  absent : record = none → tail ≠ [] → ∀ c, replay modify c tail = none

theorem settled_nil (record : Option α) : Settled modify record ([] : List (Change α μ)) :=
  ⟨rfl, fun _ h => absurd rfl h⟩

variable {modify}

/-- A change settles with the tail before it. -/
theorem Settled.snoc (h : Overwrites modify) {record : Option α} {tail : List (Change α μ)}
    (hs : Settled modify record tail) {e : Change α μ} (he : e.Applies record) :
    Settled modify (e.apply modify record) (tail ++ [e]) := by
  have hpresent : ∀ c : Option α, c.isSome = record.isSome →
      (replay modify c tail).isSome = record.isSome := by
    intro c hc
    rw [replay_isSome_congr modify hc, hs.replays]
  refine ⟨?_, fun habsent _ c => ?_⟩
  · rw [replay_snoc]
    cases e with
    | insert a =>
        rw [show record = none from he]
        cases tail with
        | nil => rfl
        | cons e tail =>
            rw [hs.absent he (List.cons_ne_nil e tail)]
    | replace a =>
        obtain ⟨b, rfl⟩ := Option.ne_none_iff_exists'.1 he
        have hsome := hpresent (some a) rfl
        obtain ⟨x, hx⟩ := Option.isSome_iff_exists.1 hsome
        rw [show (Change.replace a : Change α μ).apply modify (some b) = some a from rfl, hx]
        rfl
    | modify m =>
        obtain ⟨b, rfl⟩ := Option.ne_none_iff_exists'.1 he
        have hpart : (some (modify m b)).map (modify m) = (some b).map (modify m) :=
          congrArg some (h.again m b)
        have hreplay := replay_modify_congr h m hpart tail
        rw [hs.replays] at hreplay
        exact hreplay
    | delete => rfl
  · rw [replay_snoc]
    cases e with
    | insert a =>
        rw [show record = none from he] at habsent
        cases habsent
    | replace a =>
        obtain ⟨b, rfl⟩ := Option.ne_none_iff_exists'.1 he
        cases habsent
    | modify m =>
        obtain ⟨b, rfl⟩ := Option.ne_none_iff_exists'.1 he
        cases habsent
    | delete => rfl

variable (modify)

/-- Every tail of what is on its way is settled with the record. -/
def Reflects (record : Option α) (coming : List (Change α μ)) : Prop :=
  ∀ tail, tail <:+ coming → Settled modify record tail

/-- The replica gets to the record by what is on its way. -/
def Synced (record replica : Option α) (coming : List (Change α μ)) : Prop :=
  replay modify replica coming = record

variable {modify}

section Synced

variable {record replica : Option α} {coming : List (Change α μ)}

theorem Synced.arrive {arrived : List (Change α μ)}
    (h : Synced modify record replica (arrived ++ coming)) :
    Synced modify record (replay modify replica arrived) coming := by
  rw [Synced, ← replay_append]
  exact h

theorem Synced.change (h : Synced modify record replica coming) (e : Change α μ) :
    Synced modify (e.apply modify record) replica (coming ++ [e]) := by
  rw [Synced, replay_snoc, show replay modify replica coming = record from h]

/-- With nothing on its way the replica has the record. -/
theorem Synced.eq (h : Synced modify record replica ([] : List (Change α μ))) :
    replica = record := h

end Synced

/-! ### Changes of some kinds only -/

/-- `Reflects` for the tails that have only changes `P`. -/
def ReflectsOn (modify : μ → α → α) (P : Change α μ → Prop) (record : Option α)
    (coming : List (Change α μ)) : Prop :=
  ∀ tail, tail <:+ coming → (∀ e ∈ tail, P e) → Settled modify record tail

section Some

variable {P : Change α μ → Prop} {record : Option α} {coming : List (Change α μ)}

theorem reflectsOn_nil (record : Option α) :
    ReflectsOn modify P record ([] : List (Change α μ)) := by
  intro tail htail _
  rw [List.suffix_nil.1 htail]
  exact settled_nil modify record

theorem ReflectsOn.arrive {arrived : List (Change α μ)}
    (h : ReflectsOn modify P record (arrived ++ coming)) : ReflectsOn modify P record coming :=
  fun tail htail => h tail (htail.trans (List.suffix_append arrived coming))

/-- The record changes; nothing need be known of a change that is not `P`. -/
theorem ReflectsOn.change (ho : Overwrites modify) (h : ReflectsOn modify P record coming)
    {e : Change α μ} {record' : Option α}
    (he : P e → e.Applies record ∧ record' = e.apply modify record) :
    ReflectsOn modify P record' (coming ++ [e]) := by
  intro tail htail hall
  rcases List.suffix_concat_iff.1 htail with rfl | ⟨tail', rfl, htail'⟩
  · exact settled_nil modify _
  · obtain ⟨happlies, rfl⟩ := he (hall e (List.mem_append_right _ (List.mem_singleton_self e)))
    exact (h tail' htail' fun e' he' => hall e' (List.mem_append_left _ he')).snoc ho happlies

/-- A snapshot of the record. -/
theorem ReflectsOn.synced (h : ReflectsOn modify P record coming) (hall : ∀ e ∈ coming, P e) :
    Synced modify record record coming :=
  (h coming List.suffix_rfl hall).replays

end Some

/-! ### Changes of all kinds -/

section All

variable {record : Option α} {coming : List (Change α μ)}

theorem reflects_iff :
    Reflects modify record coming ↔ ReflectsOn modify (fun _ => True) record coming :=
  ⟨fun h tail htail _ => h tail htail, fun h tail htail => h tail htail fun _ _ => trivial⟩

theorem reflects_nil (record : Option α) : Reflects modify record ([] : List (Change α μ)) :=
  reflects_iff.2 (reflectsOn_nil record)

theorem Reflects.arrive {arrived : List (Change α μ)}
    (h : Reflects modify record (arrived ++ coming)) : Reflects modify record coming :=
  reflects_iff.2 (reflects_iff.1 h).arrive

theorem Reflects.change (ho : Overwrites modify) (h : Reflects modify record coming)
    {e : Change α μ} (he : e.Applies record) :
    Reflects modify (e.apply modify record) (coming ++ [e]) :=
  reflects_iff.2 ((reflects_iff.1 h).change ho fun _ => ⟨he, rfl⟩)

theorem Reflects.synced (h : Reflects modify record coming) : Synced modify record record coming :=
  (reflects_iff.1 h).synced fun _ _ => trivial

end All

end Replay
