import PmSaas.Issues.IssueTasks
import PmSaas.Lib.TransitionSystem

/-!
# The transaction of `create`, one database call at a time

`IssuesService.create` numbers, ranks and inserts the issue in one transaction.  An `IssueCall` is a
request of `IssuesService` stopped between two database calls, those inside the transaction
included.  What a transaction has written is seen by nobody else before it commits.  The increment
keeps the project's row locked until then, and an insert waits for rows with the same id that
are not committed yet.  Any call may fail at any step, which rolls its transaction back.

`CallStep` says what one step can do, and `transaction_alone` that a transaction which is not
interrupted does what `Db.createIssueTx` does.
-/

namespace PmSaas

open Table TransitionSystem IssuesService

/-- The transaction of a `create`, from the increment on. -/
structure CreateTx where
  projectId : JsString
  actorId : JsString
  input : CreateIssueInput
  /-- `updated.issueCounter` -/
  number : ℕ
  /-- When the counter was incremented. -/
  now : Date

inductive IssueCall where
  /-- Not in a transaction; `creating` is about to begin one. -/
  | outside (task : IssueTask)
  /-- The counter is incremented. -/
  | numbered (tx : CreateTx)
  /-- The last issue of the column is read. -/
  | ranked (tx : CreateTx) (rank : JsString)
  /-- The issue is inserted. -/
  | inserted (tx : CreateTx) (row : Issue)

/-- `COMMIT`: the incremented project and the inserted issue are there for everybody. -/
def Db.commitCreate (tx : CreateTx) (row : Issue) (db : Db) : Db :=
  Db.insertIssue row tx.input.labelIds
    { db with
      projects := updateWhere (·.id == tx.projectId)
        (fun p => { p with issueCounter := tx.number, updatedAt := tx.now }) db.projects }

namespace IssueCall

/-- The open transaction, which holds the lock on its project. -/
def tx : IssueCall → Option CreateTx
  | .outside _ => none
  | .numbered tx | .ranked tx _ | .inserted tx _ => some tx

/-- The row that is inserted and not committed. -/
def pending : IssueCall → Option Issue
  | .inserted _ row => some row
  | _ => none

/-- The call is over, with an exception unless it was over before. -/
def failed (e : Exn) : IssueCall → IssueCall
  | .outside (.done answer) => .outside (.done answer)
  | _ => .outside (.done (.error e))

/-- The next database call. -/
def step (organizationId : JsString) (belowFirst : Bool) (g : Gen) :
    IssueCall → World → IssueCall × World
  | .outside (.creating projectId actorId input), w =>
      match w.db.incrementIssueCounter projectId g.now with
      | .ok (number, _) => (.numbered ⟨projectId, actorId, input, number, g.now⟩, w)
      | .error e => (.outside (.done (.error e)), w)
  | .outside task, w =>
      (.outside (task.step organizationId belowFirst g w).1,
        (task.step organizationId belowFirst g w).2)
  | .numbered tx, w =>
      match appendRank (w.db.lastInColumn tx.projectId tx.input.status) with
      | .ok rank => (.ranked tx rank, w)
      | .error e => (.outside (.done (.error e)), w)
  | .ranked tx rank, w =>
      match w.db.createIssue (newIssue organizationId tx.actorId tx.projectId tx.input g tx.number
          rank) tx.input.labelIds with
      | .ok _ =>
          (.inserted tx
            (newIssue organizationId tx.actorId tx.projectId tx.input g tx.number rank), w)
      | .error e => (.outside (.done (.error e)), w)
  | .inserted tx row, w =>
      (.outside (.auditing
          (createdAnnouncement organizationId tx.actorId tx.projectId (issueSelect row))),
        { w with db := w.db.commitCreate tx row })

/-- The next database call waits until the other call's transaction is over: two increments of one
project, or an insert of an id that is inserted already. -/
def WaitsFor (g : Gen) : IssueCall → IssueCall → Prop
  | .outside (.creating projectId _ _), other => ∃ tx ∈ other.tx, tx.projectId = projectId
  | .ranked _ _, other => ∃ row ∈ other.pending, row.id = (g.cuid 0).val
  | _, _ => False

end IssueCall

inductive CallAct where
  | run (belowFirst : Bool) (g : Gen)
  | fail (e : Exn)

/-- The calls, one for each `τ`. -/
structure IssueCalls (τ : Type*) where
  world : World
  call : τ → IssueCall
  /-- The rows of the committed creates, in the order of the commits; no step reads it. -/
  created : List Issue

namespace IssueCalls

variable {τ : Type*}

/-- Only a call that need not wait goes on. -/
def Enabled (s : IssueCalls τ) : τ × CallAct → Prop
  | (t, .run _ g) => ∀ t', t' ≠ t → ¬(s.call t).WaitsFor g (s.call t')
  | (_, .fail _) => True

def next [DecidableEq τ] (organizationId : JsString) (s : IssueCalls τ) :
    τ × CallAct → IssueCalls τ
  | (t, .run belowFirst g) =>
      { world := ((s.call t).step organizationId belowFirst g s.world).2
        call := Function.update s.call t ((s.call t).step organizationId belowFirst g s.world).1
        created := s.created ++ (s.call t).pending.toList }
  | (t, .fail e) => { s with call := Function.update s.call t ((s.call t).failed e) }

end IssueCalls

theorem IssueCall.failed_done (call : IssueCall) (e : Exn) :
    ∃ answer, call.failed e = .outside (.done answer) := by
  unfold IssueCall.failed
  split
  · exact ⟨_, rfl⟩
  · exact ⟨_, rfl⟩

/-- Only a commit adds a row. -/
theorem append_pending {call : IssueCall} (h : call.pending = none) (created : List Issue) :
    created ++ call.pending.toList = created := by
  rw [h, Option.toList_none, List.append_nil]

/-- A call that may increment finds the lock free. -/
theorem IssueCalls.Enabled.free {τ : Type*} {s : IssueCalls τ} {t : τ} {belowFirst : Bool}
    {g : Gen} {projectId actorId : JsString} {input : CreateIssueInput}
    (h : s.Enabled (t, .run belowFirst g))
    (hcall : s.call t = .outside (.creating projectId actorId input)) :
    ∀ t', t' ≠ t → ∀ tx ∈ (s.call t').tx, tx.projectId ≠ projectId := by
  intro t' ht tx htx hsame
  refine h t' ht ?_
  rw [hcall]
  exact ⟨tx, htx, hsame⟩

/-! ### Deciding who waits -/

instance IssueCall.WaitsFor.decidable (g : Gen) :
    ∀ call other, Decidable (IssueCall.WaitsFor g call other)
  | .outside (.creating projectId _ _), other =>
      inferInstanceAs (Decidable (∃ tx ∈ other.tx, tx.projectId = projectId))
  | .ranked _ _, other =>
      inferInstanceAs (Decidable (∃ row ∈ other.pending, row.id = (g.cuid 0).val))
  | .outside (.start _), _ => inferInstanceAs (Decidable False)
  | .outside (.updating ..), _ => inferInstanceAs (Decidable False)
  | .outside (.placing ..), _ => inferInstanceAs (Decidable False)
  | .outside (.removing ..), _ => inferInstanceAs (Decidable False)
  | .outside (.auditing _), _ => inferInstanceAs (Decidable False)
  | .outside (.emitting _), _ => inferInstanceAs (Decidable False)
  | .outside (.notifying _), _ => inferInstanceAs (Decidable False)
  | .outside (.done _), _ => inferInstanceAs (Decidable False)
  | .numbered _, _ => inferInstanceAs (Decidable False)
  | .inserted .., _ => inferInstanceAs (Decidable False)

instance IssueCalls.Enabled.decidable {τ : Type*} [DecidableEq τ] [Fintype τ] (s : IssueCalls τ) :
    ∀ a, Decidable (s.Enabled a)
  | (t, .run _ g) =>
      inferInstanceAs (Decidable (∀ t', t' ≠ t → ¬(s.call t).WaitsFor g (s.call t')))
  | (_, .fail _) => inferInstanceAs (Decidable True)

/-! ### What one step can do -/

/-- The rows of `db'` are rows of `db`, with their id, project and number. -/
def KeepsNumbers (db db' : Db) : Prop :=
  ∀ i' ∈ db'.issues, ∃ i ∈ db.issues,
    i'.id = i.id ∧ i'.projectId = i.projectId ∧ i'.number = i.number

theorem KeepsNumbers.of_issues {db db' : Db} (h : db'.issues = db.issues) : KeepsNumbers db db' :=
  fun i hi => ⟨i, h ▸ hi, rfl, rfl, rfl⟩

theorem KeepsNumbers.rewriteIssue {db : Db} (issueId : JsString) {f : Issue → Issue}
    (hf : ∀ i, (f i).id = i.id ∧ (f i).projectId = i.projectId ∧ (f i).number = i.number) :
    KeepsNumbers db (db.rewriteIssue issueId f) := by
  intro i hi
  obtain ⟨j, hj, rfl⟩ := mem_updateWhere.1 hi
  refine ⟨j, hj, ?_⟩
  split
  · exact hf j
  · exact ⟨rfl, rfl, rfl⟩

/-- The steps of a call, by what they do to its transaction and to the tables. -/
inductive CallStep (organizationId : JsString) (g : Gen) (w : World) :
    IssueCall → IssueCall → World → Prop
  /-- A step outside a transaction, or a transaction that is rolled back. -/
  | outside {call : IssueCall} {task : IssueTask} {w' : World} (pending : call.pending = none)
      (projects : w'.db.projects = w.db.projects) (issues : KeepsNumbers w.db w'.db) :
      CallStep organizationId g w call (.outside task) w'
  | number {projectId actorId : JsString} {input : CreateIssueInput} {p : Project}
      (found : w.db.projects.find? (·.id == projectId) = some p) :
      CallStep organizationId g w (.outside (.creating projectId actorId input))
        (.numbered ⟨projectId, actorId, input, p.issueCounter + 1, g.now⟩) w
  | rank {tx : CreateTx} {rank : JsString}
      (last : appendRank (w.db.lastInColumn tx.projectId tx.input.status) = .ok rank) :
      CallStep organizationId g w (.numbered tx) (.ranked tx rank) w
  | insert {tx : CreateTx} {rank : JsString} (fresh : ∀ i ∈ w.db.issues, i.id ≠ (g.cuid 0).val) :
      CallStep organizationId g w (.ranked tx rank)
        (.inserted tx
          (newIssue organizationId tx.actorId tx.projectId tx.input g tx.number rank)) w
  | commit (tx : CreateTx) (row : Issue) :
      CallStep organizationId g w (.inserted tx row)
        (.outside (.auditing
          (createdAnnouncement organizationId tx.actorId tx.projectId (issueSelect row))))
        { w with db := w.db.commitCreate tx row }

section Spec

variable {organizationId : JsString} {g : Gen} {w : World}

theorem IssueCall.step_outside (belowFirst : Bool) {task : IssueTask}
    (h : ∀ projectId actorId input, task ≠ .creating projectId actorId input) :
    IssueCall.step organizationId belowFirst g (.outside task) w =
      (.outside (task.step organizationId belowFirst g w).1,
        (task.step organizationId belowFirst g w).2) := by
  cases task with
  | creating projectId actorId input => exact absurd rfl (h projectId actorId input)
  | _ => rfl

/-- A step of a request that is in no transaction. -/
theorem CallStep.of_task (belowFirst : Bool) {task : IssueTask}
    (h : ∀ projectId actorId input, task ≠ .creating projectId actorId input) :
    CallStep organizationId g w (.outside task) (.outside (task.step organizationId belowFirst g w).1)
      (task.step organizationId belowFirst g w).2 := by
  have hstep : IssueTask.Step organizationId g w task (task.step organizationId belowFirst g w).1
      (task.step organizationId belowFirst g w).2 := IssueTask.step_spec belowFirst task
  generalize (task.step organizationId belowFirst g w).1 = task' at hstep ⊢
  generalize (task.step organizationId belowFirst g w).2 = w' at hstep ⊢
  cases hstep with
  | quiet before after resolved found => exact .outside rfl rfl (.of_issues rfl)
  | create committed => exact absurd rfl (h _ _ _)
  | update committed =>
      obtain ⟨_, _, _, rfl⟩ := Db.updateIssue_ok committed
      exact .outside rfl rfl (.rewriteIssue _ fun _ => ⟨rfl, rfl, rfl⟩)
  | move committed =>
      obtain ⟨_, _, _, rfl⟩ := Db.updateIssue_ok committed
      exact .outside rfl rfl (.rewriteIssue _ fun _ => ⟨rfl, rfl, rfl⟩)
  | remove committed =>
      obtain rfl := Db.deleteIssue_ok committed
      exact .outside rfl rfl fun i hi => ⟨i, (mem_deleteWhere.1 hi).1, rfl, rfl, rfl⟩
  | audit a =>
      have hlater : Aftermath a.entry.organizationId w (w.recorded a.entry (g.cuid 0) g.now) :=
        .recorded (g.cuid 0) g.now w
      exact .outside rfl hlater.projects (.of_issues hlater.issues)
  | emit a after idle idle' => exact .outside rfl rfl (.of_issues rfl)
  | notify job =>
      have hdb := World.enqueued_db w job
      exact .outside rfl (congrArg Db.projects hdb) (.of_issues (congrArg Db.issues hdb))

/-- **Nothing but a `CallStep` happens.** -/
theorem IssueCall.step_spec (belowFirst : Bool) (call : IssueCall) :
    CallStep organizationId g w call (call.step organizationId belowFirst g w).1
      (call.step organizationId belowFirst g w).2 := by
  cases call with
  | outside task =>
      cases task with
      | creating projectId actorId input =>
          rw [step, Db.incrementIssueCounter]
          cases hp : w.db.projects.find? (·.id == projectId) with
          | none => exact .outside rfl rfl (.of_issues rfl)
          | some p => exact .number hp
      | _ =>
          rw [step_outside belowFirst fun _ _ _ h => by cases h]
          exact .of_task belowFirst fun _ _ _ h => by cases h
  | numbered tx =>
      rw [step]
      cases hr : appendRank (w.db.lastInColumn tx.projectId tx.input.status) with
      | error e => exact .outside rfl rfl (.of_issues rfl)
      | ok rank => exact .rank hr
  | ranked tx rank =>
      rw [step]
      cases hc : w.db.createIssue (newIssue organizationId tx.actorId tx.projectId tx.input g
          tx.number rank) tx.input.labelIds with
      | error e => exact .outside rfl rfl (.of_issues rfl)
      | ok r =>
          obtain ⟨view, db⟩ := r
          exact .insert (Db.createIssue_ok hc).2.2.1
  | inserted tx row => exact .commit tx row

end Spec

/-! ### A transaction on its own -/

namespace IssueCall

/-- A call run on without interruption. -/
def steps (organizationId : JsString) (g : Gen) (n : ℕ) (s : IssueCall × World) :
    IssueCall × World :=
  (fun s => step organizationId false g s.1 s.2)^[n] s

variable {organizationId : JsString} {g : Gen} {w : World}

theorem steps_succ (n : ℕ) (call : IssueCall) (w : World) :
    steps organizationId g (n + 1) (call, w) =
      steps organizationId g n (call.step organizationId false g w) :=
  Function.iterate_succ_apply ..

theorem steps_done (n : ℕ) (answer : Except Exn Unit) (w : World) :
    steps organizationId g n (.outside (.done answer), w) = (.outside (.done answer), w) := by
  induction n with
  | zero => rfl
  | succ n ih => exact ih

/-- The transaction writes the row of the project that it has read. -/
theorem commitCreate_eq (hids : UniqueKey Project.id w.db.projects) {p : Project}
    (hp : w.db.projects.find? (·.id == p.id) = some p) (actorId : JsString)
    (input : CreateIssueInput) (row : Issue) :
    w.db.commitCreate ⟨p.id, actorId, input, p.issueCounter + 1, g.now⟩ row =
      (w.db.bumpProject p.id g.now).insertIssue row input.labelIds := by
  have hrows : updateWhere (·.id == p.id)
      (fun q : Project => { q with issueCounter := p.issueCounter + 1, updatedAt := g.now })
        w.db.projects = updateWhere (·.id == p.id) (Project.bump g.now) w.db.projects := by
    refine List.map_congr_left fun q hq => ?_
    by_cases hid : q.id = p.id
    · rw [hids.eq_of_key_eq hq (hids.find?_iff.1 hp).1 hid]
      rfl
    · have hno : ¬(q.id == p.id) = true := fun h => hid (beq_iff_eq.1 h)
      simp only [if_neg hno]
  rw [Db.commitCreate, hrows]
  rfl

/-- The counter does not matter to the insert. -/
theorem createIssue_bumpProject (projectId : JsString) (now : Date) (row : Issue)
    (labelIds : List JsString) (db : Db) :
    (db.bumpProject projectId now).createIssue row labelIds =
      (db.createIssue row labelIds).map fun r =>
        (r.1, (db.bumpProject projectId now).insertIssue row labelIds) := by
  have hbump : (db.bumpProject projectId now).projects.any (·.id == row.projectId) =
      db.projects.any (·.id == row.projectId) :=
    any_updateWhere fun _ _ _ => rfl
  rw [Db.createIssue, hbump, Db.createIssue, apply_ite (Except.map _), apply_ite (Except.map _)]
  rfl

/-- **A transaction that is not interrupted is the atomic one.** -/
theorem transaction_alone (hids : UniqueKey Project.id w.db.projects) (projectId actorId : JsString)
    (input : CreateIssueInput) :
    steps organizationId g 4 (.outside (.creating projectId actorId input), w) =
      (.outside (IssueTask.step organizationId false g (.creating projectId actorId input) w).1,
        (IssueTask.step organizationId false g (.creating projectId actorId input) w).2) := by
  rw [IssueTask.step, Db.createIssueTx, steps_succ, step, Db.incrementIssueCounter]
  cases hp : w.db.projects.find? (·.id == projectId) with
  | none => exact steps_done ..
  | some p =>
      obtain ⟨_, rfl⟩ := hids.find?_iff.1 hp
      have hlast : (w.db.bumpProject p.id g.now).lastInColumn p.id input.status =
          w.db.lastInColumn p.id input.status := rfl
      simp only [bind, Except.bind, hlast]
      rw [steps_succ, step]
      cases appendRank (w.db.lastInColumn p.id input.status) with
      | error e => exact steps_done ..
      | ok rank =>
          simp only
          rw [steps_succ, step, createIssue_bumpProject]
          cases hc : w.db.createIssue (newIssue organizationId actorId p.id input g
              (p.issueCounter + 1) rank) input.labelIds with
          | error e => exact steps_done ..
          | ok r =>
              obtain ⟨view, db⟩ := r
              obtain ⟨rfl, _⟩ := Db.createIssue_ok hc
              rw [steps_succ, step, commitCreate_eq hids hp]
              rfl

end IssueCall

/-! ### Clients of the API -/

namespace IssueCalls.Samples

inductive Client where
  | first | second | third | fourth
  deriving DecidableEq

instance Client.fintype : Fintype Client where
  elems := {.first, .second, .third, .fourth}
  complete t := by cases t <;> decide

end IssueCalls.Samples

end PmSaas
