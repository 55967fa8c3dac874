import PmSaas.Issues.Numbering
import PmSaas.Types.RankLength

/-!
# The columns that creates fill

A `create` reads the last rank of its column inside its transaction, after the increment has locked
the project's row.  So the rank it computes is still above the column when it commits, and the
column grows as if the creates came one after the other.

* `CreateStep`: what one step of a `create` can do;
* `Filling`: what every step keeps of the columns, the numbers and the open transactions;
* `columns_of_creates`: each column lists its issues in the order of their numbers, and the `j`-th
  one has the rank `appendedRank j`.
-/

namespace PmSaas

open SortBy Table TransitionSystem IssuesService

/-! ### Calls that are creates -/

/-- The task belongs to a `create`, or its write is committed. -/
def IssueTask.ForCreate : IssueTask → Prop
  | .start (.create ..) | .creating .. | .auditing _ | .emitting _ | .notifying _ | .done _ => True
  | _ => False

def IssueCall.ForCreate : IssueCall → Prop
  | .outside task => task.ForCreate
  | _ => True

/-- The steps of a `create`, by what they do to its transaction and to the tables. -/
inductive CreateStep (organizationId : JsString) (g : Gen) (w : World) :
    IssueCall → IssueCall → World → Prop
  | outside {call : IssueCall} {task : IssueTask} {w' : World} (pending : call.pending = none)
      (forCreate : task.ForCreate) (projects : w'.db.projects = w.db.projects)
      (issues : w'.db.issues = w.db.issues) :
      CreateStep organizationId g w call (.outside task) w'
  | number {projectId actorId : JsString} {input : CreateIssueInput} {p : Project}
      (found : w.db.projects.find? (·.id == projectId) = some p) :
      CreateStep organizationId g w (.outside (.creating projectId actorId input))
        (.numbered ⟨projectId, actorId, input, p.issueCounter + 1, g.now⟩) w
  | rank {tx : CreateTx} {rank : JsString}
      (last : appendRank (w.db.lastInColumn tx.projectId tx.input.status) = .ok rank) :
      CreateStep organizationId g w (.numbered tx) (.ranked tx rank) w
  | insert (tx : CreateTx) (rank : JsString) :
      CreateStep organizationId g w (.ranked tx rank)
        (.inserted tx
          (newIssue organizationId tx.actorId tx.projectId tx.input g tx.number rank)) w
  | commit (tx : CreateTx) (row : Issue) :
      CreateStep organizationId g w (.inserted tx row)
        (.outside (.auditing
          (createdAnnouncement organizationId tx.actorId tx.projectId (issueSelect row))))
        { w with db := w.db.commitCreate tx row }

section Spec

variable {organizationId : JsString} {g : Gen} {w : World}

/-- Before and after its transaction a `create` changes no project and no issue. -/
theorem CreateStep.of_task (belowFirst : Bool) {task : IssueTask} (hcreate : task.ForCreate)
    (h : ∀ projectId actorId input, task ≠ .creating projectId actorId input) :
    CreateStep organizationId g w (.outside task)
      (.outside (task.step organizationId belowFirst g w).1)
      (task.step organizationId belowFirst g w).2 := by
  cases task with
  | start request =>
      cases request with
      | create actorId projectKey input =>
          rw [IssueTask.step]
          cases w.db.findProject organizationId projectKey with
          | none => exact .outside rfl trivial rfl rfl
          | some project => exact .outside rfl trivial rfl rfl
      | _ => exact hcreate.elim
  | creating projectId actorId input => exact absurd rfl (h projectId actorId input)
  | auditing a =>
      have hlater : Aftermath a.entry.organizationId w (w.recorded a.entry (g.cuid 0) g.now) :=
        .recorded (g.cuid 0) g.now w
      exact .outside rfl trivial hlater.projects hlater.issues
  | emitting a =>
      rw [IssueTask.step]
      cases a.job with
      | none => exact .outside rfl trivial rfl rfl
      | some job => exact .outside rfl trivial rfl rfl
  | notifying job =>
      have hdb := World.enqueued_db w job
      exact .outside rfl trivial (congrArg Db.projects hdb) (congrArg Db.issues hdb)
  | done answer => exact .outside rfl trivial rfl rfl
  | _ => exact hcreate.elim

/-- **Nothing but a `CreateStep` happens.** -/
theorem IssueCall.createStep (belowFirst : Bool) {call : IssueCall} (hcreate : call.ForCreate) :
    CreateStep organizationId g w call (call.step organizationId belowFirst g w).1
      (call.step organizationId belowFirst g w).2 := by
  cases call with
  | outside task =>
      cases task with
      | creating projectId actorId input =>
          rw [step, Db.incrementIssueCounter]
          cases hp : w.db.projects.find? (·.id == projectId) with
          | none => exact .outside rfl trivial rfl rfl
          | some p => exact .number hp
      | _ =>
          rw [step_outside belowFirst fun _ _ _ h => by cases h]
          exact .of_task belowFirst hcreate fun _ _ _ h => by cases h
  | numbered tx =>
      rw [step]
      cases hr : appendRank (w.db.lastInColumn tx.projectId tx.input.status) with
      | error e => exact .outside rfl trivial rfl rfl
      | ok rank => exact .rank hr
  | ranked tx rank =>
      rw [step]
      cases w.db.createIssue (newIssue organizationId tx.actorId tx.projectId tx.input g tx.number
          rank) tx.input.labelIds with
      | error e => exact .outside rfl trivial rfl rfl
      | ok r => exact .insert tx rank
  | inserted tx row => exact .commit tx row

end Spec

/-! ### The ranks of a column -/

/-- The rows have the ranks of issues that were appended one after the other. -/
def Appended (rows : List Issue) : Prop :=
  rows.map Issue.rank = (List.range rows.length).map appendedRank

theorem Appended.append {rows : List Issue} (h : Appended rows) {row : Issue}
    (hrow : row.rank = appendedRank rows.length) : Appended (rows ++ [row]) := by
  rw [Appended, List.map_append, List.length_append, List.length_singleton, List.range_succ,
    List.map_append, h, List.map_singleton, List.map_singleton, hrow]

theorem Appended.getElem {rows : List Issue} (h : Appended rows) {j : ℕ} {i : Issue}
    (hi : rows[j]? = some i) : i.rank = appendedRank j := by
  obtain ⟨hlt, -⟩ := List.getElem?_eq_some_iff.1 hi
  have hrank : (rows.map Issue.rank)[j]? = some i.rank := by
    rw [List.getElem?_map, hi]
    rfl
  rw [h, List.getElem?_map, List.getElem?_range hlt] at hrank
  exact (Option.some.inj hrank).symm

theorem Appended.increasing {rows : List Issue} (h : Appended rows) :
    Increasing Issue.rank rows := by
  refine List.pairwise_map.1 ?_
  rw [h]
  exact List.pairwise_map.2 (List.pairwise_lt_range.imp fun hlt => appendedRank_strictMono hlt)

/-- `create` computes the next rank. -/
theorem Appended.next {db : Db} {projectId : JsString} {status : IssueStatus} {rank : JsString}
    (h : Appended (db.columnRows projectId status))
    (hrank : appendRank (db.lastInColumn projectId status) = .ok rank) :
    rank = appendedRank (db.columnRows projectId status).length := by
  cases hlast : db.lastInColumn projectId status with
  | none =>
      rw [hlast] at hrank
      rw [Db.lastInColumn, head?_sortBy_eq_none] at hlast
      rw [hlast, ← Except.ok.inj hrank]
      exact appendedRank_zero.symm
  | some last =>
      rw [hlast, appendRank, rankBetween_ok (by simp)] at hrank
      obtain rfl := Except.ok.inj hrank
      obtain ⟨hmem, hmax⟩ := head?_sortBy_le hlast
      obtain ⟨j, hj⟩ := List.mem_iff_getElem?.1 hmem
      obtain ⟨hlt, -⟩ := List.getElem?_eq_some_iff.1 hj
      -- the row with the greatest rank is the one at the end
      have hend : (db.columnRows projectId status).length - 1 <
          (db.columnRows projectId status).length := by omega
      have hle := hmax _ (List.getElem_mem hend)
      rw [h.getElem hj, h.getElem (List.getElem?_eq_getElem hend)] at hle
      have hlast : (db.columnRows projectId status).length - 1 ≤ j :=
        appendedRank_strictMono.le_iff_le.1 hle
      rw [h.getElem hj, rankMid_appendedRank]
      congr 1
      omega

/-! ### What a commit does to the columns -/

section Commit

variable {projectId : JsString} {tx : CreateTx} {row : Issue} {db : Db} {status : IssueStatus}

theorem columnRows_commitCreate (hrow : row.projectId = projectId) (hstatus : row.status = status) :
    (db.commitCreate tx row).columnRows projectId status =
      db.columnRows projectId status ++ [row] := by
  have hmem : (row.projectId == projectId && row.status == status) = true := by
    rw [hrow, hstatus, beq_self_eq_true, beq_self_eq_true, Bool.and_self]
  rw [Db.columnRows, Db.commitCreate, Db.insertIssue, List.filter_append,
    List.filter_singleton, hmem]
  rfl

/-- The other columns stay. -/
theorem columnRows_commitCreate_of_ne (h : row.projectId = projectId → row.status ≠ status) :
    (db.commitCreate tx row).columnRows projectId status = db.columnRows projectId status := by
  have hmem : (row.projectId == projectId && row.status == status) = false := by
    rw [Bool.and_eq_false_imp, beq_iff_eq, beq_eq_false_iff_ne]
    exact h
  rw [Db.columnRows, Db.commitCreate, Db.insertIssue, List.filter_append,
    List.filter_singleton, hmem]
  exact List.append_nil _

/-- The counter of the project is the number of the issue. -/
theorem issueCounter_commitCreate {q : Project} (hq : q ∈ (db.commitCreate tx row).projects)
    (hid : q.id = tx.projectId) : q.issueCounter = tx.number := by
  obtain ⟨p, hp, rfl⟩ := mem_updateWhere.1 hq
  by_cases hpid : p.id = tx.projectId
  · rw [if_pos (beq_iff_eq.2 hpid)]
  · rw [if_neg fun h => hpid (beq_iff_eq.1 h)] at hid
    exact absurd hid hpid

end Commit

/-! ### The invariant -/

section Columns

variable {τ : Type*}

/-- The rank that a transaction on the project has computed is still the next one of its column. -/
def IssueCall.InPlace (projectId : JsString) (db : Db) : IssueCall → Prop
  | .ranked tx rank => tx.projectId = projectId →
      rank = appendedRank (db.columnRows projectId tx.input.status).length
  | .inserted _ row => row.projectId = projectId →
      row.rank = appendedRank (db.columnRows projectId row.status).length
  | _ => True

namespace IssueCalls

/-- The project has no issue, and the calls are creates about to begin. -/
structure CreatesBegin (projectId : JsString) (s : IssueCalls τ) : Prop where
  projectIds : UniqueKey Project.id s.world.db.projects
  empty : ∀ i ∈ s.world.db.issues, i.projectId ≠ projectId
  calls : ∀ t, ∃ actorId projectKey input,
    s.call t = .outside (.start (.create actorId projectKey input))

/-- **The invariant of a project that is filled by creates.**  Every column is ranked in the order
of the commits, which is that of the numbers, and the open transaction on the project, if there is
one, has the next number and the next rank. -/
structure Filling (projectId : JsString) (s : IssueCalls τ) : Prop where
  projectIds : UniqueKey Project.id s.world.db.projects
  ranks : ∀ status, Appended (s.world.db.columnRows projectId status)
  numbers : (s.world.db.issues.filter (·.projectId == projectId)).Pairwise fun i j =>
    i.number < j.number
  counter : ∀ i ∈ s.world.db.issues, i.projectId = projectId →
    ∀ p ∈ s.world.db.projects, p.id = projectId → i.number ≤ p.issueCounter
  calls : Serialized s.call
  creates : ∀ t, (s.call t).ForCreate
  number : ∀ t, ∀ tx ∈ (s.call t).tx, tx.projectId = projectId →
    ∃ p ∈ s.world.db.projects, p.id = projectId ∧ tx.number = p.issueCounter + 1
  inPlace : ∀ t, (s.call t).InPlace projectId s.world.db

variable {organizationId projectId : JsString} {s : IssueCalls τ}

theorem CreatesBegin.filling (h : CreatesBegin projectId s) : s.Filling projectId := by
  have hcall : ∀ t, (s.call t).tx = none ∧ (s.call t).pending = none ∧ (s.call t).ForCreate ∧
      (s.call t).InPlace projectId s.world.db := by
    intro t
    obtain ⟨actorId, projectKey, input, hcall⟩ := h.calls t
    rw [hcall]
    exact ⟨rfl, rfl, trivial, trivial⟩
  have hcolumn : ∀ status, s.world.db.columnRows projectId status = [] := by
    intro status
    refine List.filter_eq_nil_iff.2 fun i hi => ?_
    simp [h.empty i hi]
  have hrows : s.world.db.issues.filter (·.projectId == projectId) = [] := by
    refine List.filter_eq_nil_iff.2 fun i hi => ?_
    simpa using h.empty i hi
  refine ⟨h.projectIds, fun status => ?_, ?_, fun i hi hproject => absurd hproject (h.empty i hi),
    ⟨fun t t' tx htx => ?_, fun t row hrow => ?_⟩, fun t => (hcall t).2.2.1, fun t tx htx => ?_,
    fun t => (hcall t).2.2.2⟩
  · rw [hcolumn]
    rfl
  · rw [hrows]
    exact .nil
  · rw [(hcall t).1] at htx
    cases htx
  · rw [(hcall t).2.1] at hrow
    cases hrow
  · rw [(hcall t).1] at htx
    cases htx

section Steps

variable [DecidableEq τ] {t : τ} {g : Gen} {w' : World}

/-- A call that is in no transaction after its step, and has committed none. -/
theorem Filling.outside (h : s.Filling projectId) (t : τ) {task : IssueTask}
    (hcreate : task.ForCreate) (hprojects : w'.db.projects = s.world.db.projects)
    (hissues : w'.db.issues = s.world.db.issues) :
    Filling projectId
      { world := w', call := Function.update s.call t (.outside task), created := s.created } := by
  have hcolumn : ∀ status, w'.db.columnRows projectId status =
      s.world.db.columnRows projectId status := by
    intro status
    rw [Db.columnRows, Db.columnRows, hissues]
  refine ⟨?_, fun status => ?_, ?_, ?_, h.calls.outside t task, ?_, fun t' tx htx => ?_, ?_⟩
  · rw [hprojects]
    exact h.projectIds
  · rw [hcolumn]
    exact h.ranks status
  · rw [hissues]
    exact h.numbers
  · rw [hissues, hprojects]
    exact h.counter
  · exact (Function.forall_update_iff _ fun _ => IssueCall.ForCreate).2
      ⟨hcreate, fun t' _ => h.creates t'⟩
  · rw [hprojects]
    exact h.number t' tx (tx_update_outside htx).2
  · refine (Function.forall_update_iff _ fun _ => IssueCall.InPlace projectId w'.db).2
      ⟨trivial, fun t' _ => ?_⟩
    have hold := h.inPlace t'
    unfold IssueCall.InPlace at hold ⊢
    simpa only [hcolumn] using hold

/-- A call that goes on in the transaction it is in. -/
theorem Filling.inside (h : s.Filling projectId) {call : IssueCall} (htx : call.tx = (s.call t).tx)
    (hpending : ∀ row ∈ call.pending, ∃ tx ∈ call.tx,
      row.projectId = tx.projectId ∧ row.number = tx.number)
    (hcreate : call.ForCreate) (hplace : call.InPlace projectId s.world.db) :
    Filling projectId { s with call := Function.update s.call t call } := by
  obtain ⟨hcalls, hsame⟩ := h.calls.inside htx hpending
  refine ⟨h.projectIds, h.ranks, h.numbers, h.counter, hcalls, ?_, fun t' => ?_, ?_⟩
  · exact (Function.forall_update_iff _ fun _ => IssueCall.ForCreate).2
      ⟨hcreate, fun t' _ => h.creates t'⟩
  · simp only [hsame]
    exact h.number t'
  · exact (Function.forall_update_iff _ fun _ => IssueCall.InPlace projectId s.world.db).2
      ⟨hplace, fun t' _ => h.inPlace t'⟩

/-- An increment takes the next number, if no other call holds the lock. -/
theorem Filling.increment (h : s.Filling projectId) {tx : CreateTx} {p : Project}
    (hfound : s.world.db.projects.find? (·.id == tx.projectId) = some p)
    (hnumber : tx.number = p.issueCounter + 1)
    (hfree : ∀ t', t' ≠ t → ∀ tx' ∈ (s.call t').tx, tx'.projectId ≠ tx.projectId) :
    Filling projectId { s with call := Function.update s.call t (.numbered tx) } := by
  obtain ⟨hp, hid⟩ := h.projectIds.find?_iff.1 hfound
  refine ⟨h.projectIds, h.ranks, h.numbers, h.counter, h.calls.numbered hfree, ?_, ?_, ?_⟩
  · exact (Function.forall_update_iff _ fun _ => IssueCall.ForCreate).2
      ⟨trivial, fun t' _ => h.creates t'⟩
  · refine (Function.forall_update_iff s.call fun _ call =>
      ∀ tx ∈ call.tx, tx.projectId = projectId →
      ∃ p ∈ s.world.db.projects, p.id = projectId ∧ tx.number = p.issueCounter + 1).2
      ⟨?_, fun t' _ => h.number t'⟩
    rintro _ ⟨⟩ hproject
    exact ⟨p, hp, hid.trans hproject, hnumber⟩
  · exact (Function.forall_update_iff _ fun _ => IssueCall.InPlace projectId s.world.db).2
      ⟨trivial, fun t' _ => h.inPlace t'⟩

omit [DecidableEq τ] in
/-- A call in no transaction on the project of the row still has the next rank of its column. -/
theorem Filling.inPlace_commit (h : s.Filling projectId) (tx : CreateTx) {row : Issue}
    (hother : ∀ tx' ∈ (s.call t).tx, tx'.projectId ≠ row.projectId) :
    (s.call t).InPlace projectId (s.world.db.commitCreate tx row) := by
  have hstays : ∀ tx' ∈ (s.call t).tx, tx'.projectId = projectId → ∀ status,
      (s.world.db.commitCreate tx row).columnRows projectId status =
        s.world.db.columnRows projectId status := by
    intro tx' htx' hproject status
    exact columnRows_commitCreate_of_ne fun hmine =>
      absurd (hproject.trans hmine.symm) (hother tx' htx')
  have hold := h.inPlace t
  cases hcall : s.call t with
  | outside task => trivial
  | numbered tx' => trivial
  | ranked tx' rank =>
      intro hproject
      rw [hcall] at hold
      rw [hstays tx' (by rw [hcall]; rfl) hproject]
      exact hold hproject
  | inserted tx' row' =>
      intro hproject
      have hrow := (h.calls.of_inserted hcall).1
      rw [hcall] at hold
      rw [hstays tx' (by rw [hcall]; rfl) (hrow.symm.trans hproject)]
      exact hold hproject

omit [DecidableEq τ] in
/-- The row of an open transaction has a greater number than the issues of its project. -/
theorem Filling.lt_number (h : s.Filling projectId) {tx : CreateTx} {row : Issue}
    (hcall : s.call t = .inserted tx row) (hmine : row.projectId = projectId) {i : Issue}
    (hi : i ∈ s.world.db.issues) (hproject : i.projectId = projectId) : i.number < row.number := by
  obtain ⟨hrowProject, hrowNumber⟩ := h.calls.of_inserted hcall
  obtain ⟨p, hp, hpid, hnext⟩ :=
    h.number t tx (by rw [hcall]; rfl) (hrowProject.symm.trans hmine)
  have hle := h.counter i hi hproject p hp hpid
  omega

/-- **A commit** appends one issue to its column; no other call is in a transaction on its
project. -/
theorem Filling.commit (h : s.Filling projectId) {tx : CreateTx} {row : Issue}
    (hcall : s.call t = .inserted tx row) {task : IssueTask} (hcreate : task.ForCreate) :
    Filling projectId
      { world := { s.world with db := s.world.db.commitCreate tx row }
        call := Function.update s.call t (.outside task)
        created := s.created ++ [row] } := by
  have htx : tx ∈ (s.call t).tx := by rw [hcall]; rfl
  obtain ⟨hrowProject, hrowNumber⟩ := h.calls.of_inserted hcall
  have hplace := h.inPlace t
  rw [hcall] at hplace
  -- no other call is in a transaction on the project of the row
  have hother : ∀ t', t' ≠ t → ∀ tx₁ ∈ (s.call t').tx, tx₁.projectId ≠ row.projectId :=
    fun t' ht tx₁ htx₁ hsame =>
      ht (h.calls.locked t' t tx₁ htx₁ tx htx (hsame.trans hrowProject))
  refine ⟨h.projectIds.update fun _ _ _ => rfl, fun status => ?_, ?_,
    fun i hi hproject q hq hqid => ?_, h.calls.outside t task, ?_, fun t' tx₁ htx₁ hp₁ => ?_, ?_⟩
  · by_cases hcolumn : row.projectId = projectId ∧ row.status = status
    · obtain ⟨hproject, rfl⟩ := hcolumn
      rw [columnRows_commitCreate hproject rfl]
      exact (h.ranks row.status).append (hplace hproject)
    · rw [columnRows_commitCreate_of_ne fun hp hs => hcolumn ⟨hp, hs⟩]
      exact h.ranks status
  · change ((s.world.db.issues ++ [row]).filter _).Pairwise _
    rw [List.filter_append, List.pairwise_append]
    refine ⟨h.numbers, List.Pairwise.filter _ (List.pairwise_singleton _ _), fun i hi j hj => ?_⟩
    obtain ⟨hi, hiproject⟩ := List.mem_filter.1 hi
    obtain ⟨hj, hjproject⟩ := List.mem_filter.1 hj
    obtain rfl := List.mem_singleton.1 hj
    exact h.lt_number hcall (beq_iff_eq.1 hjproject) hi (beq_iff_eq.1 hiproject)
  · by_cases hmine : row.projectId = projectId
    · rw [issueCounter_commitCreate hq (hqid.trans (hmine.symm.trans hrowProject)), ← hrowNumber]
      rcases List.mem_append.1 hi with hi | hi
      · exact (h.lt_number hcall hmine hi hproject).le
      · rw [List.mem_singleton.1 hi]
    · have hne : q.id ≠ tx.projectId := fun heq =>
        hmine (hrowProject.trans (heq.symm.trans hqid))
      have hq := (mem_commitCreate_of_ne hne).1 hq
      rcases List.mem_append.1 hi with hi | hi
      · exact h.counter i hi hproject q hq hqid
      · obtain rfl := List.mem_singleton.1 hi
        exact absurd hproject hmine
  · exact (Function.forall_update_iff _ fun _ => IssueCall.ForCreate).2
      ⟨hcreate, fun t' _ => h.creates t'⟩
  · obtain ⟨ht, hold⟩ := tx_update_outside htx₁
    obtain ⟨p, hp, hpid, hnext⟩ := h.number t' tx₁ hold hp₁
    refine ⟨p, (mem_commitCreate_of_ne fun heq => ?_).2 hp, hpid, hnext⟩
    exact hother t' ht tx₁ hold (hp₁.trans (hpid.symm.trans (heq.trans hrowProject.symm)))
  · exact (Function.forall_update_iff _ fun _ =>
      IssueCall.InPlace projectId (s.world.db.commitCreate tx row)).2
      ⟨trivial, fun t' ht => h.inPlace_commit tx (hother t' ht)⟩

/-- **Every step keeps the columns filled.** -/
theorem Filling.next (h : s.Filling projectId) {a : τ × CallAct} (henabled : s.Enabled a) :
    (s.next organizationId a).Filling projectId := by
  obtain ⟨t, act⟩ := a
  cases act with
  | fail e =>
      obtain ⟨answer, hanswer⟩ := (s.call t).failed_done e
      rw [IssueCalls.next, hanswer]
      exact h.outside t trivial rfl rfl
  | run belowFirst g =>
      have hstep : CreateStep organizationId g s.world (s.call t)
          ((s.call t).step organizationId belowFirst g s.world).1
          ((s.call t).step organizationId belowFirst g s.world).2 :=
        IssueCall.createStep belowFirst (h.creates t)
      rw [IssueCalls.next]
      generalize ((s.call t).step organizationId belowFirst g s.world).1 = call' at hstep ⊢
      generalize ((s.call t).step organizationId belowFirst g s.world).2 = w' at hstep ⊢
      generalize hcall : s.call t = call at hstep
      cases hstep with
      | outside pending forCreate projects issues =>
          rw [append_pending pending]
          exact h.outside t forCreate projects issues
      | @number pid actorId input p found =>
          rw [append_pending (show (IssueCall.outside (.creating pid actorId input)).pending = none
            from rfl)]
          exact h.increment found rfl (henabled.free hcall)
      | @rank tx rank last =>
          rw [append_pending (show (IssueCall.numbered tx).pending = none from rfl)]
          refine h.inside (by rw [hcall]; rfl) (fun row hrow => by cases hrow) trivial ?_
          rintro rfl
          exact (h.ranks tx.input.status).next last
      | insert tx rank =>
          rw [append_pending (show (IssueCall.ranked tx rank).pending = none from rfl)]
          have hplace := h.inPlace t
          rw [hcall] at hplace
          refine h.inside (by rw [hcall]; rfl) (fun row hrow => ⟨tx, rfl, ?_⟩) trivial hplace
          cases hrow
          exact ⟨rfl, rfl⟩
      | commit tx row => exact h.commit hcall trivial

theorem Filling.run {s' : IssueCalls τ} {as : List (τ × CallAct)} (h : s.Filling projectId)
    (hrun : Run (Steps Enabled (IssueCalls.next organizationId)) s as s') :
    s'.Filling projectId := by
  refine hrun.invariant (P := Filling projectId) ?_ h
  intro s₁ a s₂ hs hstep
  obtain ⟨henabled, rfl⟩ := hstep
  exact hs.next henabled

end Steps

end IssueCalls

/-- **Each column is ranked in the order of the numbers.**  Any number of creates take turns, each
free to fail at any step, and the project is empty when they begin.  In every state each column,
sorted by rank, is sorted by number, and its `j`-th issue has the rank `appendedRank j`, which is
`1 + j / 6` characters long. -/
theorem columns_of_creates [DecidableEq τ] {organizationId projectId : JsString}
    {s₀ s : IssueCalls τ} {as : List (τ × CallAct)} (h₀ : s₀.CreatesBegin projectId)
    (hrun : Run (Steps IssueCalls.Enabled (IssueCalls.next organizationId)) s₀ as s)
    (status : IssueStatus) :
    ((s.world.db.column projectId status).Pairwise fun i j => i.number < j.number) ∧
    ∀ j i, (s.world.db.column projectId status)[j]? = some i →
      i.rank = appendedRank j ∧ i.rank.length = 1 + j / 6 := by
  have hs : s.Filling projectId := h₀.filling.run hrun
  have hcolumn : s.world.db.column projectId status = s.world.db.columnRows projectId status :=
    sortBy_eq (hs.ranks status).increasing (.refl _)
  rw [hcolumn]
  refine ⟨?_, fun j i hi => ?_⟩
  · have hrows : s.world.db.columnRows projectId status =
        (s.world.db.issues.filter (·.projectId == projectId)).filter (·.status == status) := by
      rw [List.filter_filter, Db.columnRows]
      congr 1
      funext i
      exact Bool.and_comm _ _
    rw [hrows]
    exact hs.numbers.filter _
  · have hrank := (hs.ranks status).getElem hi
    rw [hrank]
    exact ⟨rfl, appendedRank_length j⟩

end Columns

/-! ### Two creates that overlap -/

namespace IssueCalls.Samples

def newTask : CreateIssueInput := { title := js "Task" }

/-- The project is there, and everybody creates an issue. -/
def creates : IssueCalls Client where
  world := start.world
  call _ := .outside (.start (.create Demo.userId.val newProject.key newTask))
  created := []

theorem creates_begin : creates.CreatesBegin project.id where
  projectIds := by unfold UniqueKey; decide
  empty := by decide
  calls _ := ⟨_, _, _, rfl⟩

/-- The second create begins its transaction as soon as the first one is over. -/
def overlapping : List (Client × CallAct) :=
  [turn .second Demo.secondId, turn .first Demo.firstId, turn .first Demo.firstId,
    turn .first Demo.firstId, turn .first Demo.firstId, turn .first Demo.firstId,
    turn .second Demo.secondId, turn .second Demo.secondId, turn .second Demo.secondId,
    turn .second Demo.secondId]

end IssueCalls.Samples

open IssueCalls IssueCalls.Samples in
theorem columns_of_creates_sample :
    (((play overlapping creates).world.db.column project.id newTask.status).Pairwise
      fun i j => i.number < j.number) ∧
    ∀ j i, ((play overlapping creates).world.db.column project.id newTask.status)[j]? = some i →
      i.rank = appendedRank j ∧ i.rank.length = 1 + j / 6 :=
  columns_of_creates creates_begin
    (Along.run (show Along Enabled (next Demo.orgId.val) creates overlapping by decide))
    newTask.status

open IssueCalls IssueCalls.Samples in
example : ((play overlapping creates).world.db.column project.id newTask.status).map Issue.rank =
    [js "V", js "k"] := by decide

end PmSaas
