import PmSaas.Lib.TransitionSystem
import Mathlib.Data.List.Basic

/-!
# Row-level security

A database is a list of rows, each of some table.  A table may have a policy, which lets through
the rows that satisfy it under the current setting of the session: a statement sees, changes and
deletes only those, and writes only rows that satisfy it.  A table without a policy is open, and
what foreign keys do to rows (`onDelete`, `onUpdate`) no policy stops.

`Confined` is the condition on a statement, and `Transaction.confined` says that statements which
meet it never reach a row that the policies keep out.  Constraints are left out but for `restricts`:
they only make statements fail.
-/

namespace RowSecurity

open TransitionSystem

/-- Tables, policies and foreign keys. -/
structure Catalog (τ ρ γ : Type*) where
  table : ρ → τ
  /-- The policy that the role is subject to. -/
  policy : τ → Option (γ → ρ → Bool)
  /-- What becomes of the second row when the first is deleted; `none` deletes it too. -/
  onDelete : ρ → ρ → Option ρ
  /-- The second row keeps the first from being deleted. -/
  restricts : ρ → ρ → Bool
  /-- What becomes of the third row when the first is updated to the second. -/
  onUpdate : ρ → ρ → ρ → ρ

/-- A condition or an expression of a statement may contain subqueries, which see the rows that the
policies let through. -/
inductive Statement (τ ρ γ : Type*) where
  | select (table : τ) (condition : List ρ → ρ → Bool)
  | insert (table : τ) (values : List ρ → List ρ)
  | update (table : τ) (condition : List ρ → ρ → Bool) (set : List ρ → ρ → ρ)
  | delete (table : τ) (condition : List ρ → ρ → Bool)
  /-- `set_config`. -/
  | configure (setting : γ)

section Semantics

variable {τ ρ γ : Type*} [DecidableEq τ] [DecidableEq ρ] (c : Catalog τ ρ γ) (setting : γ)
  (rows : List ρ)

/-- The policy of the row's table lets it through. -/
def admits (r : ρ) : Bool :=
  match c.policy (c.table r) with
  | some clause => clause setting r
  | none => true

/-- What a subquery sees. -/
def view : List ρ := rows.filter (admits c setting)

/-- The statement's condition selects the row, and the policy lets it through. -/
def hits (table : τ) (condition : List ρ → ρ → Bool) (r : ρ) : Bool :=
  admits c setting r && (c.table r == table && condition (view c setting rows) r)

/-- A row that may be written to the table. -/
def accepts (table : τ) (r : ρ) : Bool := c.table r == table && admits c setting r

/-- The rows that go with `gone`, after so many rounds of `onDelete`. -/
def cascade : ℕ → List ρ → List ρ
  | 0, gone => gone
  | n + 1, gone =>
      cascade n (gone ++ rows.filter fun r =>
        !gone.contains r && gone.any fun p => (c.onDelete p r).isNone)

/-- A row that is left when the others are gone. -/
def unlinked (gone : List ρ) (r : ρ) : ρ := gone.foldl (fun r p => (c.onDelete p r).getD r) r

/-- A row after the updates of others. -/
def rekeyed (updates : List (ρ × ρ)) (r : ρ) : ρ :=
  updates.foldl (fun r u => c.onUpdate u.1 u.2 r) r

/-- The rows of an update, before and after. -/
def updates (table : τ) (condition : List ρ → ρ → Bool) (set : List ρ → ρ → ρ) : List (ρ × ρ) :=
  (rows.filter (hits c setting rows table condition)).map fun r => (r, set (view c setting rows) r)

/-- The rows that an update changes through foreign keys. -/
def rekeys (table : τ) (condition : List ρ → ρ → Bool) (set : List ρ → ρ → ρ) : List ρ :=
  rows.filter fun r => decide (rekeyed c (updates c setting rows table condition set) r ≠ r)

/-- The rows that go with a delete. -/
def doomed (table : τ) (condition : List ρ → ρ → Bool) : List ρ :=
  cascade c rows rows.length (rows.filter (hits c setting rows table condition))

/-- The rows that stay when others are deleted. -/
def left (table : τ) (condition : List ρ → ρ → Bool) : List ρ :=
  rows.filter fun r => !(doomed c setting rows table condition).contains r

/-- The rows that a delete changes through foreign keys. -/
def unlinks (table : τ) (condition : List ρ → ρ → Bool) : List ρ :=
  (left c setting rows table condition).filter fun r =>
    decide (unlinked c (doomed c setting rows table condition) r ≠ r)

/-- The rows that are returned, updated or deleted, as they are before and after, then all rows, and
the setting; `none` is an error. -/
def exec : Statement τ ρ γ → Option (List ρ × List ρ × γ)
  | .select table condition =>
      some (rows.filter (hits c setting rows table condition), rows, setting)
  | .insert table values =>
      if (values (view c setting rows)).all (accepts c setting table) then
        some (values (view c setting rows), rows ++ values (view c setting rows), setting)
      else none
  | .update table condition set =>
      let changes := updates c setting rows table condition set
      if changes.all (fun u => accepts c setting table u.2) then
        some (changes.map Prod.fst ++ changes.map Prod.snd ++
            rekeys c setting rows table condition set,
          rows.map fun r => rekeyed c changes
            (if hits c setting rows table condition r then set (view c setting rows) r else r),
          setting)
      else none
  | .delete table condition =>
      let gone := doomed c setting rows table condition
      let rest := left c setting rows table condition
      if rest.any (fun r => gone.any fun p => c.restricts p r) then none
      else some (gone ++ unlinks c setting rows table condition, rest.map (unlinked c gone), setting)
  | .configure value => some ([], rows, value)

end Semantics

/-! ### The condition on a statement -/

section Confinement

variable {τ ρ γ : Type*} [DecidableEq τ] (c : Catalog τ ρ γ) (home : γ)
  (foreign : List ρ → ρ → Bool)

/-- The policies keep the foreign rows out under the setting `home`. -/
def Shields : Prop :=
  ∀ rows r, c.policy (c.table r) ≠ none → admits c home r = true → foreign rows r = false

/-- On a table without a policy the statement itself selects no foreign row. -/
def Spares (setting : γ) (rows : List ρ) (table : τ) (condition : List ρ → ρ → Bool) : Prop :=
  c.policy table = none → ∀ r ∈ rows, hits c setting rows table condition r = true →
    foreign rows r = false

variable {c home foreign} {rows : List ρ} {table : τ} {condition : List ρ → ρ → Bool}

theorem not_foreign_of_hits (hshields : Shields c home foreign)
    (hspares : Spares c foreign home rows table condition) {r : ρ} (hr : r ∈ rows)
    (hhits : hits c home rows table condition r = true) : foreign rows r = false := by
  have hboth : admits c home r = true ∧ c.table r = table := by
    simp only [hits, Bool.and_eq_true, beq_iff_eq] at hhits
    exact ⟨hhits.1, hhits.2.1⟩
  by_cases hpolicy : c.policy table = none
  · exact hspares hpolicy r hr hhits
  · exact hshields rows r (hboth.2 ▸ hpolicy) hboth.1

theorem not_foreign_of_accepts (hshields : Shields c home foreign) {r : ρ}
    (hr : accepts c home table r = true) (hpolicy : c.policy table ≠ none) :
    foreign rows r = false := by
  simp only [accepts, Bool.and_eq_true, beq_iff_eq] at hr
  exact hshields rows r (hr.1 ▸ hpolicy) hr.2

variable [DecidableEq ρ] (c home foreign)

/-- The setting stays; on a table without a policy the statement itself selects and writes no
foreign row; and no foreign row refers to a row that is deleted or gets a new key. -/
def Confined (setting : γ) (rows : List ρ) : Statement τ ρ γ → Prop
  | .select table condition => Spares c foreign setting rows table condition
  | .insert table values =>
      c.policy table = none → ∀ r ∈ values (view c setting rows), foreign rows r = false
  | .update table condition set =>
      Spares c foreign setting rows table condition ∧
      (c.policy table = none → ∀ u ∈ updates c setting rows table condition set,
        foreign rows u.2 = false) ∧
      ∀ r ∈ rows, foreign rows r = true → ∀ u ∈ updates c setting rows table condition set,
        c.onUpdate u.1 u.2 r = r
  | .delete table condition =>
      Spares c foreign setting rows table condition ∧
      ∀ r ∈ rows, foreign rows r = true → ∀ p ∈ doomed c setting rows table condition,
        c.onDelete p r = some r
  | .configure value => value = home

instance Spares.decidable (setting : γ) (rows : List ρ) (table : τ)
    (condition : List ρ → ρ → Bool) :
    Decidable (Spares c foreign setting rows table condition) :=
  inferInstanceAs (Decidable (_ → ∀ r ∈ rows, _ → _))

instance Confined.decidable [DecidableEq γ] (setting : γ) (rows : List ρ) :
    ∀ statement, Decidable (Confined c home foreign setting rows statement)
  | .select table condition => Spares.decidable c foreign setting rows table condition
  | .insert _ _ => inferInstanceAs (Decidable (_ → ∀ r ∈ _, _))
  | .update _ _ _ =>
      inferInstanceAs (Decidable (_ ∧ (_ → ∀ u ∈ _, _) ∧ ∀ r ∈ rows, _ → ∀ u ∈ _, _))
  | .delete _ _ => inferInstanceAs (Decidable (_ ∧ ∀ r ∈ rows, _ → ∀ p ∈ _, _))
  | .configure value => inferInstanceAs (Decidable (value = home))

variable {c home foreign}

omit [DecidableEq τ] in
theorem mem_of_mem_cascade {n : ℕ} {gone : List ρ} (hgone : ∀ r ∈ gone, r ∈ rows) {r : ρ}
    (h : r ∈ cascade c rows n gone) : r ∈ rows := by
  induction n generalizing gone with
  | zero => exact hgone r h
  | succ n ih =>
      refine ih (fun q hq => ?_) h
      rcases List.mem_append.1 hq with hq | hq
      · exact hgone q hq
      · exact List.mem_of_mem_filter hq

omit [DecidableEq τ] in
theorem mem_cascade_of_mem {n : ℕ} {gone : List ρ} {r : ρ} (h : r ∈ gone) :
    r ∈ cascade c rows n gone := by
  induction n generalizing gone with
  | zero => exact h
  | succ n ih => exact ih (List.mem_append_left _ h)

omit [DecidableEq τ] in
/-- A row goes for itself, or with a row that it refers to. -/
theorem mem_cascade {n : ℕ} {gone : List ρ} {r : ρ} (h : r ∈ cascade c rows n gone) :
    r ∈ gone ∨ ∃ p ∈ cascade c rows n gone, c.onDelete p r = none := by
  induction n generalizing gone with
  | zero => exact .inl h
  | succ n ih =>
      rcases ih h with hgone | hparent
      · rcases List.mem_append.1 hgone with hgone | hnew
        · exact .inl hgone
        · have hany := (Bool.and_eq_true_iff.1 (List.mem_filter.1 hnew).2).2
          obtain ⟨p, hp, hnone⟩ := List.any_eq_true.1 hany
          exact .inr ⟨p, mem_cascade_of_mem hp, Option.isNone_iff_eq_none.1 hnone⟩
      · exact .inr hparent

omit [DecidableEq τ] [DecidableEq ρ] in
theorem unlinked_eq {gone : List ρ} {r : ρ} (h : ∀ p ∈ gone, c.onDelete p r = some r) :
    unlinked c gone r = r := by
  induction gone with
  | nil => rfl
  | cons p gone ih =>
      have hp : (c.onDelete p r).getD r = r := by rw [h p List.mem_cons_self, Option.getD_some]
      rw [unlinked, List.foldl_cons, hp]
      exact ih fun q hq => h q (List.mem_cons_of_mem _ hq)

omit [DecidableEq τ] [DecidableEq ρ] in
theorem rekeyed_eq {changes : List (ρ × ρ)} {r : ρ}
    (h : ∀ u ∈ changes, c.onUpdate u.1 u.2 r = r) : rekeyed c changes r = r := by
  induction changes with
  | nil => rfl
  | cons u changes ih =>
      rw [rekeyed, List.foldl_cons, h u List.mem_cons_self]
      exact ih fun v hv => h v (List.mem_cons_of_mem _ hv)

/-- A deletion takes no foreign row along. -/
theorem not_foreign_of_doomed (hshields : Shields c home foreign)
    (hspares : Spares c foreign home rows table condition)
    (hunreferred : ∀ r ∈ rows, foreign rows r = true → ∀ p ∈ doomed c home rows table condition,
      c.onDelete p r = some r) {r : ρ} (hr : r ∈ doomed c home rows table condition) :
    foreign rows r = false := by
  have hmem : r ∈ rows := mem_of_mem_cascade (fun q hq => List.mem_of_mem_filter hq) hr
  rcases mem_cascade hr with hhits | ⟨p, hp, hnone⟩
  · exact not_foreign_of_hits hshields hspares hmem (List.mem_filter.1 hhits).2
  · refine Bool.eq_false_iff.2 fun hforeign => ?_
    have hsome := hunreferred r hmem hforeign p hp
    cases hnone.symm.trans hsome

theorem not_foreign_of_unlinks
    (hunreferred : ∀ r ∈ rows, foreign rows r = true → ∀ p ∈ doomed c home rows table condition,
      c.onDelete p r = some r) {r : ρ} (hr : r ∈ unlinks c home rows table condition) :
    foreign rows r = false := by
  obtain ⟨hleft, hchanged⟩ := List.mem_filter.1 hr
  have hmem : r ∈ rows := List.mem_of_mem_filter hleft
  refine Bool.eq_false_iff.2 fun hforeign => ?_
  exact of_decide_eq_true hchanged (unlinked_eq (hunreferred r hmem hforeign))

theorem not_foreign_of_rekeys {set : List ρ → ρ → ρ}
    (hunreferred : ∀ r ∈ rows, foreign rows r = true →
      ∀ u ∈ updates c home rows table condition set, c.onUpdate u.1 u.2 r = r)
    {r : ρ} (hr : r ∈ rekeys c home rows table condition set) : foreign rows r = false := by
  obtain ⟨hmem, hchanged⟩ := List.mem_filter.1 hr
  refine Bool.eq_false_iff.2 fun hforeign => ?_
  exact of_decide_eq_true hchanged (rekeyed_eq (hunreferred r hmem hforeign))

omit [DecidableEq ρ] in
/-- The rows of an update, as they were and as they are written. -/
theorem not_foreign_of_updates {set : List ρ → ρ → ρ} (hshields : Shields c home foreign)
    (hspares : Spares c foreign home rows table condition)
    (hwritten : c.policy table = none →
      ∀ u ∈ updates c home rows table condition set, foreign rows u.2 = false)
    (haccepts : (updates c home rows table condition set).all
      (fun u => accepts c home table u.2) = true)
    {u : ρ × ρ} (hu : u ∈ updates c home rows table condition set) :
    foreign rows u.1 = false ∧ foreign rows u.2 = false := by
  constructor
  · obtain ⟨old, hold, rfl⟩ := List.mem_map.1 hu
    obtain ⟨hmem, hhits⟩ := List.mem_filter.1 hold
    exact not_foreign_of_hits hshields hspares hmem hhits
  · by_cases hpolicy : c.policy table = none
    · exact hwritten hpolicy u hu
    · exact not_foreign_of_accepts hshields (List.all_eq_true.1 haccepts u hu) hpolicy

/-- **A confined statement reaches no foreign row**, and leaves the setting. -/
theorem exec_confined (hshields : Shields c home foreign) {statement : Statement τ ρ γ}
    (hconfined : Confined c home foreign home rows statement) {reached rows' : List ρ} {setting' : γ}
    (h : exec c home rows statement = some (reached, rows', setting')) :
    (∀ r ∈ reached, foreign rows r = false) ∧ setting' = home := by
  cases statement with
  | select table condition =>
      cases h
      refine ⟨fun r hr => ?_, rfl⟩
      obtain ⟨hmem, hhits⟩ := List.mem_filter.1 hr
      exact not_foreign_of_hits hshields hconfined hmem hhits
  | insert table values =>
      simp only [exec] at h
      split at h
      · rename_i haccepts
        cases h
        refine ⟨fun r hr => ?_, rfl⟩
        by_cases hpolicy : c.policy table = none
        · exact hconfined hpolicy r hr
        · exact not_foreign_of_accepts hshields (List.all_eq_true.1 haccepts r hr) hpolicy
      · cases h
  | update table condition set =>
      obtain ⟨hspares, hwritten, hunreferred⟩ := hconfined
      simp only [exec] at h
      split at h
      · rename_i haccepts
        cases h
        have hboth : ∀ u ∈ updates c home rows table condition set,
            foreign rows u.1 = false ∧ foreign rows u.2 = false :=
          fun u hu => not_foreign_of_updates hshields hspares hwritten haccepts hu
        refine ⟨fun r hr => ?_, rfl⟩
        rcases List.mem_append.1 hr with hr | hr
        · rcases List.mem_append.1 hr with hr | hr
          · obtain ⟨u, hu, rfl⟩ := List.mem_map.1 hr
            exact (hboth u hu).1
          · obtain ⟨u, hu, rfl⟩ := List.mem_map.1 hr
            exact (hboth u hu).2
        · exact not_foreign_of_rekeys hunreferred hr
      · cases h
  | delete table condition =>
      obtain ⟨hspares, hunreferred⟩ := hconfined
      simp only [exec] at h
      split at h
      · cases h
      · cases h
        refine ⟨fun r hr => ?_, rfl⟩
        rcases List.mem_append.1 hr with hr | hr
        · exact not_foreign_of_doomed hshields hspares hunreferred hr
        · exact not_foreign_of_unlinks hunreferred hr
  | configure value =>
      cases h
      exact ⟨fun r hr => (by cases hr), hconfined⟩

end Confinement

/-! ### Transactions -/

/-- A transaction, with a journal of the rows its statements have reached, each with all rows there
were before the statement. -/
structure Transaction (ρ γ : Type*) where
  begun : List ρ
  rows : List ρ
  setting : γ
  /-- After an error every statement fails, and the transaction is rolled back. -/
  aborted : Bool
  journal : List (List ρ × ρ)

namespace Transaction

variable {τ ρ γ : Type*} [DecidableEq τ] [DecidableEq ρ] (c : Catalog τ ρ γ)

def start (rows : List ρ) (setting : γ) : Transaction ρ γ := ⟨rows, rows, setting, false, []⟩

def next (t : Transaction ρ γ) (statement : Statement τ ρ γ) : Transaction ρ γ :=
  if t.aborted then t
  else
    match exec c t.setting t.rows statement with
    | some (reached, rows, setting) =>
        { t with
          rows := rows
          setting := setting
          journal := t.journal ++ reached.map fun r => (t.rows, r) }
    | none => { t with rows := t.begun, aborted := true }

variable {c} {home : γ} {foreign : List ρ → ρ → Bool}

/-- **Confined statements reach no foreign row**, in every transaction. -/
theorem confined (hshields : Shields c home foreign) {rows : List ρ} {t : Transaction ρ γ}
    {statements : List (Statement τ ρ γ)}
    (hrun : Run (Guarded (Steps (fun _ _ => True) (next c))
      fun t statement => t.aborted = false →
        Confined c home foreign t.setting t.rows statement)
      (start rows home) statements t) :
    ∀ entry ∈ t.journal, foreign entry.1 entry.2 = false := by
  have h : t.setting = home ∧ ∀ entry ∈ t.journal, foreign entry.1 entry.2 = false := by
    refine hrun.invariant (P := fun t : Transaction ρ γ =>
      t.setting = home ∧ ∀ entry ∈ t.journal, foreign entry.1 entry.2 = false) ?_
      ⟨rfl, fun entry hentry => by cases hentry⟩
    intro t statement t' ht hstep
    obtain ⟨hsetting, hjournal⟩ := ht
    obtain ⟨⟨_, rfl⟩, hconfined⟩ := hstep
    unfold next
    cases haborted : t.aborted with
    | true => exact ⟨hsetting, hjournal⟩
    | false =>
        have hconfined := hconfined haborted
        simp only [Bool.false_eq_true, if_false]
        cases he : exec c t.setting t.rows statement with
        | none => exact ⟨hsetting, hjournal⟩
        | some result =>
            obtain ⟨reached, rows', setting'⟩ := result
            rw [hsetting] at he hconfined
            obtain ⟨hreached, hsetting'⟩ := exec_confined hshields hconfined he
            refine ⟨hsetting', fun entry hentry => ?_⟩
            rcases List.mem_append.1 hentry with hentry | hentry
            · exact hjournal entry hentry
            · obtain ⟨r, hr, rfl⟩ := List.mem_map.1 hentry
              exact hreached r hr
  exact h.2

end Transaction

end RowSecurity
