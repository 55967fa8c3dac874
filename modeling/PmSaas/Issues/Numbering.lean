import PmSaas.Api.TenantSound
import PmSaas.Issues.CreateTransaction

/-!
# Issue numbers

The counter of a project is incremented in the transaction that inserts the issue, and the
increment locks the project's row until the transaction is over.  So no two open transactions
number an issue of one project, and one that is rolled back leaves no gap.

* `IssueCalls.Counted`: what every step keeps of committed rows, open transactions and the counter;
* `numbers_given`: the numbers given in a project are `1, 2, …, issueCounter` in the order of the
  commits, and the number of an issue that is gone is never given again.
-/

namespace PmSaas

open Table TransitionSystem IssuesService

section Numbers

variable {τ : Type*}

namespace IssueCalls

/-- The numbers given to committed creates of a project, in the order of the commits. -/
def given (projectId : JsString) (s : IssueCalls τ) : List ℕ :=
  (s.created.filter (·.projectId == projectId)).map Issue.number

/-- No issue of the project has the number. -/
def Vacant (projectId : JsString) (number : ℕ) (s : IssueCalls τ) : Prop :=
  ∀ i ∈ s.world.db.issues, i.projectId = projectId → i.number ≠ number

end IssueCalls

/-- The project was just created, and the calls are about to begin. -/
structure NumberingStart (organizationId : JsString) (project : Project) (s : IssueCalls τ) :
    Prop where
  created : ∃ actorId input g w, TenantSound w.db ∧
    ProjectsService.create organizationId actorId input g w = (.ok project, s.world)
  calls : ∀ t, ∃ request, s.call t = .outside (.start request)
  none : s.created = []

/-! ### Open transactions -/

/-- The open transactions are on different projects, and each inserts the issue it has numbered. -/
structure Serialized (call : τ → IssueCall) : Prop where
  locked : ∀ t t', ∀ tx ∈ (call t).tx, ∀ tx' ∈ (call t').tx, tx.projectId = tx'.projectId → t = t'
  pending : ∀ t, ∀ row ∈ (call t).pending, ∃ tx ∈ (call t).tx,
    row.projectId = tx.projectId ∧ row.number = tx.number

section Calls

variable [DecidableEq τ] {call : τ → IssueCall} {t : τ}

/-- Who is in a transaction after another call has ended or gone on outside. -/
theorem tx_update_outside {task : IssueTask} {t' : τ} {tx : CreateTx}
    (h : tx ∈ (Function.update call t (.outside task) t').tx) : t' ≠ t ∧ tx ∈ (call t').tx := by
  by_cases ht : t' = t
  · subst ht
    rw [Function.update_self] at h
    cases h
  · rw [Function.update_of_ne ht] at h
    exact ⟨ht, h⟩

namespace Serialized

/-- One call changes, the others keep their rows. -/
theorem pending_update (h : Serialized call) {next : IssueCall}
    (hnext : ∀ row ∈ next.pending, ∃ tx ∈ next.tx,
      row.projectId = tx.projectId ∧ row.number = tx.number) (t' : τ) :
    ∀ row ∈ (Function.update call t next t').pending, ∃ tx ∈ (Function.update call t next t').tx,
      row.projectId = tx.projectId ∧ row.number = tx.number := by
  revert t'
  exact (Function.forall_update_iff call fun _ call => ∀ row ∈ call.pending, ∃ tx ∈ call.tx,
    row.projectId = tx.projectId ∧ row.number = tx.number).2 ⟨hnext, fun t' _ => h.pending t'⟩

theorem outside (h : Serialized call) (t : τ) (task : IssueTask) :
    Serialized (Function.update call t (.outside task)) where
  locked t₁ t₂ tx₁ h₁ tx₂ h₂ :=
    h.locked t₁ t₂ tx₁ (tx_update_outside h₁).2 tx₂ (tx_update_outside h₂).2
  pending := h.pending_update fun row hrow => by cases hrow

/-- A call goes on in its transaction. -/
theorem inside (h : Serialized call) {next : IssueCall} (htx : next.tx = (call t).tx)
    (hnext : ∀ row ∈ next.pending, ∃ tx ∈ next.tx,
      row.projectId = tx.projectId ∧ row.number = tx.number) :
    Serialized (Function.update call t next) ∧
      ∀ t', (Function.update call t next t').tx = (call t').tx := by
  have hsame : ∀ t', (Function.update call t next t').tx = (call t').tx := by
    intro t'
    by_cases ht : t' = t
    · subst ht
      rw [Function.update_self, htx]
    · rw [Function.update_of_ne ht]
  refine ⟨⟨fun t₁ t₂ => ?_, h.pending_update hnext⟩, hsame⟩
  rw [hsame, hsame]
  exact h.locked t₁ t₂

/-- A call that gets the lock. -/
theorem numbered (h : Serialized call) {tx : CreateTx}
    (hfree : ∀ t', t' ≠ t → ∀ tx' ∈ (call t').tx, tx'.projectId ≠ tx.projectId) :
    Serialized (Function.update call t (.numbered tx)) := by
  refine ⟨fun t₁ t₂ tx₁ htx₁ tx₂ htx₂ hsame => ?_, h.pending_update fun row hrow => by cases hrow⟩
  by_cases h₁ : t₁ = t
  · by_cases h₂ : t₂ = t
    · rw [h₁, h₂]
    · subst h₁
      rw [Function.update_self] at htx₁
      rw [Function.update_of_ne h₂] at htx₂
      cases htx₁
      exact absurd hsame.symm (hfree t₂ h₂ tx₂ htx₂)
  · by_cases h₂ : t₂ = t
    · subst h₂
      rw [Function.update_self] at htx₂
      rw [Function.update_of_ne h₁] at htx₁
      cases htx₂
      exact absurd hsame (hfree t₁ h₁ tx₁ htx₁)
    · rw [Function.update_of_ne h₁] at htx₁
      rw [Function.update_of_ne h₂] at htx₂
      exact h.locked t₁ t₂ tx₁ htx₁ tx₂ htx₂ hsame

omit [DecidableEq τ] in
/-- The row of an open transaction is the one it has numbered. -/
theorem of_inserted (h : Serialized call) {tx : CreateTx} {row : Issue}
    (hcall : call t = .inserted tx row) :
    row.projectId = tx.projectId ∧ row.number = tx.number := by
  obtain ⟨tx', htx', hrow⟩ := h.pending t row (by rw [hcall]; rfl)
  rw [hcall] at htx'
  obtain rfl := Option.some.inj htx'
  exact hrow

end Serialized

end Calls

/-! ### What a commit does to the projects -/

section Commit

variable {projectId : JsString} {tx : CreateTx} {row : Issue} {db : Db} {p : Project}

/-- The counter of the project is the number of the issue. -/
theorem mem_commitCreate_self (hp : p ∈ db.projects) (hid : p.id = tx.projectId) :
    { p with issueCounter := tx.number, updatedAt := tx.now } ∈
      (db.commitCreate tx row).projects := by
  refine mem_updateWhere.2 ⟨p, hp, ?_⟩
  rw [if_pos (beq_iff_eq.2 hid)]

/-- The other projects stay. -/
theorem mem_commitCreate_of_ne (hid : p.id ≠ tx.projectId) :
    p ∈ (db.commitCreate tx row).projects ↔ p ∈ db.projects := by
  have hself : (p.id == tx.projectId) = false := beq_eq_false_iff_ne.2 hid
  refine ⟨fun hp => ?_, fun hp => mem_updateWhere_of_not hp hself⟩
  obtain ⟨q, hq, heq⟩ := mem_updateWhere.1 hp
  by_cases hqid : q.id = tx.projectId
  · rw [if_pos (beq_iff_eq.2 hqid)] at heq
    exact absurd ((congrArg Project.id heq).symm.trans hqid) hid
  · rw [if_neg fun h => hqid (beq_iff_eq.1 h)] at heq
    rwa [← heq]

end Commit

/-! ### The invariant -/

namespace IssueCalls

/-- **The invariant of the numbers of a project.**  The counter counts the committed creates, and
the open transaction on the project, if there is one, has the next number. -/
structure Counted (projectId : JsString) (s : IssueCalls τ) : Prop where
  projectIds : UniqueKey Project.id s.world.db.projects
  counter : ∃ p ∈ s.world.db.projects, p.id = projectId ∧
    s.given projectId = List.range' 1 p.issueCounter
  rows : ∀ i ∈ s.world.db.issues, i.projectId = projectId → i.number ∈ s.given projectId
  calls : Serialized s.call
  number : ∀ t, ∀ tx ∈ (s.call t).tx, tx.projectId = projectId →
    ∀ p ∈ s.world.db.projects, p.id = projectId → tx.number = p.issueCounter + 1

variable {organizationId projectId : JsString} {s : IssueCalls τ}

theorem given_append (s : IssueCalls τ) (w : World) (call : τ → IssueCall) (row : Issue) :
    given projectId { world := w, call := call, created := s.created ++ [row] } =
      s.given projectId ++ if row.projectId = projectId then [row.number] else [] := by
  rw [given, given, List.filter_append, List.map_append]
  by_cases hrow : row.projectId = projectId
  · simp [hrow]
  · simp [hrow]

theorem Counted.start {project : Project} (h : NumberingStart organizationId project s) :
    s.Counted project.id := by
  obtain ⟨actorId, input, g, w, hsound, hcreate⟩ := h.created
  obtain ⟨db, hdb, hlater⟩ := ProjectsService.create_ok hcreate
  obtain ⟨rfl, rfl, hfresh⟩ := Db.createProject_ok hdb
  have htx : ∀ t, (s.call t).tx = none ∧ (s.call t).pending = none := by
    intro t
    obtain ⟨request, hrequest⟩ := h.calls t
    rw [hrequest]
    exact ⟨rfl, rfl⟩
  have hprojects : s.world.db.projects = w.db.projects ++ [_] := hlater.projects
  refine ⟨?_, ⟨_, ?_, rfl, ?_⟩, fun i hi hproject => ?_, ⟨fun t t' tx htx' => ?_, fun t row hrow => ?_⟩,
    fun t tx htx' => ?_⟩
  · rw [hprojects]
    exact hsound.projectIds.insert hfresh
  · rw [hprojects]
    exact List.mem_append_right _ (List.mem_singleton_self _)
  · rw [given, h.none]
    rfl
  · have hissues : s.world.db.issues = w.db.issues := hlater.issues
    rw [hissues] at hi
    obtain ⟨p, hp, hid, _⟩ := hsound.issueProjects i hi
    exact absurd (hid.trans hproject) (hfresh p hp)
  · rw [(htx t).1] at htx'
    cases htx'
  · rw [(htx t).2] at hrow
    cases hrow
  · rw [(htx t).1] at htx'
    cases htx'

/-- The numbers are in order, given numbers stay given, and no issue got one of them since. -/
structure Advances (projectId : JsString) (s s' : IssueCalls τ) : Prop where
  counted : s'.Counted projectId
  given : s.given projectId <+: s'.given projectId
  rows : ∀ i ∈ s'.world.db.issues, i.projectId = projectId →
    (∃ j ∈ s.world.db.issues, j.projectId = projectId ∧ j.number = i.number) ∨
      i.number ∉ s.given projectId

theorem Advances.refl (h : s.Counted projectId) : Advances projectId s s :=
  ⟨h, List.prefix_rfl, fun i hi hproject => .inl ⟨i, hi, hproject, rfl⟩⟩

theorem Advances.trans {s' s'' : IssueCalls τ} (h : Advances projectId s s')
    (h' : Advances projectId s' s'') : Advances projectId s s'' := by
  refine ⟨h'.counted, h.given.trans h'.given, fun i hi hproject => ?_⟩
  rcases h'.rows i hi hproject with ⟨j, hj, hjproject, hnumber⟩ | hnew
  · rw [← hnumber]
    exact h.rows j hj hjproject
  · exact .inr fun hold => hnew (h.given.subset hold)

/-- A given number that no issue has will not be given again. -/
theorem Advances.vacant {s' : IssueCalls τ} (h : Advances projectId s s') {number : ℕ}
    (hgiven : number ∈ s.given projectId) (hvacant : s.Vacant projectId number) :
    s'.Vacant projectId number := by
  rintro i hi hproject rfl
  rcases h.rows i hi hproject with ⟨j, hj, hjproject, hnumber⟩ | hnew
  · exact hvacant j hj hjproject hnumber
  · exact hnew hgiven

section Steps

variable [DecidableEq τ] {t : τ} {g : Gen} {w' : World}

/-- A call that is in no transaction after its step, and has committed none. -/
theorem Counted.outside (h : s.Counted projectId) (t : τ) (task : IssueTask)
    (hprojects : w'.db.projects = s.world.db.projects) (hissues : KeepsNumbers s.world.db w'.db) :
    Advances projectId s
      { world := w', call := Function.update s.call t (.outside task), created := s.created } := by
  refine ⟨⟨?_, ?_, fun i hi hproject => ?_, h.calls.outside t task, fun t' tx htx => ?_⟩,
    List.prefix_rfl, fun i hi hproject => ?_⟩
  · rw [hprojects]
    exact h.projectIds
  · simp only [hprojects]
    exact h.counter
  · obtain ⟨j, hj, _, hp, hnumber⟩ := hissues i hi
    rw [hnumber]
    exact h.rows j hj (hp.symm.trans hproject)
  · simp only [hprojects]
    exact h.number t' tx (tx_update_outside htx).2
  · obtain ⟨j, hj, _, hp, hnumber⟩ := hissues i hi
    exact .inl ⟨j, hj, hp.symm.trans hproject, hnumber.symm⟩

/-- A call that goes on in the transaction it is in. -/
theorem Counted.inside (h : s.Counted projectId) {call : IssueCall} (htx : call.tx = (s.call t).tx)
    (hpending : ∀ row ∈ call.pending, ∃ tx ∈ call.tx,
      row.projectId = tx.projectId ∧ row.number = tx.number) :
    Advances projectId s { s with call := Function.update s.call t call } := by
  obtain ⟨hcalls, hsame⟩ := h.calls.inside htx hpending
  refine ⟨⟨h.projectIds, h.counter, h.rows, hcalls, fun t' => ?_⟩, List.prefix_rfl,
    fun i hi hproject => .inl ⟨i, hi, hproject, rfl⟩⟩
  simp only [hsame]
  exact h.number t'

/-- **An increment** takes the next number, if no other call holds the lock. -/
theorem Counted.increment (h : s.Counted projectId) {tx : CreateTx} {p : Project}
    (hfound : s.world.db.projects.find? (·.id == tx.projectId) = some p)
    (hnumber : tx.number = p.issueCounter + 1)
    (hfree : ∀ t', t' ≠ t → ∀ tx' ∈ (s.call t').tx, tx'.projectId ≠ tx.projectId) :
    Advances projectId s { s with call := Function.update s.call t (.numbered tx) } := by
  obtain ⟨hp, hid⟩ := h.projectIds.find?_iff.1 hfound
  refine ⟨⟨h.projectIds, h.counter, h.rows, h.calls.numbered hfree,
    fun t' tx' htx' hproject q hq hqid => ?_⟩, List.prefix_rfl,
    fun i hi hproject => .inl ⟨i, hi, hproject, rfl⟩⟩
  by_cases ht : t' = t
  · subst ht
    simp only [Function.update_self] at htx'
    cases htx'
    rw [hnumber, h.projectIds.eq_of_key_eq hq hp (hqid.trans (hproject.symm.trans hid.symm))]
  · simp only [Function.update_of_ne ht] at htx'
    exact h.number t' tx' htx' hproject q hq hqid

/-- **A commit** gives the next number, or is on another project. -/
theorem Counted.commit (h : s.Counted projectId) {tx : CreateTx} {row : Issue}
    (hcall : s.call t = .inserted tx row) (task : IssueTask) :
    Advances projectId s
      { world := { s.world with db := s.world.db.commitCreate tx row }
        call := Function.update s.call t (.outside task)
        created := s.created ++ [row] } := by
  have htx : tx ∈ (s.call t).tx := by rw [hcall]; rfl
  obtain ⟨hrowProject, hrowNumber⟩ := h.calls.of_inserted hcall
  obtain ⟨p, hp, hpid, hgiven⟩ := h.counter
  have hnumber : tx.projectId = projectId → tx.number = p.issueCounter + 1 :=
    fun hmine => h.number t tx htx hmine p hp hpid
  refine ⟨⟨h.projectIds.update fun _ _ _ => rfl, ?_, fun i hi hproject => ?_,
    h.calls.outside t task, fun t' tx₁ htx₁ hp₁ q hq hqid => ?_⟩, ?_, fun i hi hproject => ?_⟩
  · by_cases hmine : tx.projectId = projectId
    · refine ⟨_, mem_commitCreate_self hp (hpid.trans hmine.symm), hpid, ?_⟩
      rw [given_append, if_pos (hrowProject.trans hmine), hgiven, hrowNumber, hnumber hmine,
        List.range'_1_concat, Nat.add_comm 1]
    · have hne : p.id ≠ tx.projectId := fun heq => hmine (heq.symm.trans hpid)
      refine ⟨p, (mem_commitCreate_of_ne hne).2 hp, hpid, ?_⟩
      rw [given_append, if_neg fun heq => hmine (hrowProject.symm.trans heq), List.append_nil]
      exact hgiven
  · rw [given_append]
    rcases List.mem_append.1 hi with hi | hi
    · exact List.mem_append_left _ (h.rows i hi hproject)
    · obtain rfl := List.mem_singleton.1 hi
      rw [if_pos hproject]
      exact List.mem_append_right _ (List.mem_singleton_self _)
  · obtain ⟨hother, hold⟩ := tx_update_outside htx₁
    have hne : q.id ≠ tx.projectId := fun heq =>
      hother (h.calls.locked t' t tx₁ hold tx htx (hp₁.trans (hqid.symm.trans heq)))
    exact h.number t' tx₁ hold hp₁ q ((mem_commitCreate_of_ne hne).1 hq) hqid
  · rw [given_append]
    exact List.prefix_append ..
  · rcases List.mem_append.1 hi with hi | hi
    · exact .inl ⟨i, hi, hproject, rfl⟩
    · obtain rfl := List.mem_singleton.1 hi
      have hnext : i.number = p.issueCounter + 1 :=
        hrowNumber.trans (hnumber (hrowProject.symm.trans hproject))
      right
      rw [hgiven, List.mem_range'_1]
      omega

/-- **Every step keeps the numbers.** -/
theorem Counted.next (h : s.Counted projectId) {a : τ × CallAct} (henabled : s.Enabled a) :
    Advances projectId s (s.next organizationId a) := by
  obtain ⟨t, act⟩ := a
  cases act with
  | fail e =>
      obtain ⟨answer, hanswer⟩ := (s.call t).failed_done e
      rw [IssueCalls.next, hanswer]
      exact h.outside t (.done answer) rfl (.of_issues rfl)
  | run belowFirst g =>
      have hstep : CallStep organizationId g s.world (s.call t)
          ((s.call t).step organizationId belowFirst g s.world).1
          ((s.call t).step organizationId belowFirst g s.world).2 := IssueCall.step_spec ..
      rw [IssueCalls.next]
      generalize ((s.call t).step organizationId belowFirst g s.world).1 = call' at hstep ⊢
      generalize ((s.call t).step organizationId belowFirst g s.world).2 = w' at hstep ⊢
      generalize hcall : s.call t = call at hstep
      cases hstep with
      | outside pending projects issues =>
          rw [append_pending pending]
          exact h.outside t _ projects issues
      | @number pid actorId input p found =>
          rw [append_pending (show (IssueCall.outside (.creating pid actorId input)).pending = none
            from rfl)]
          exact h.increment found rfl (henabled.free hcall)
      | @rank tx rank last =>
          rw [append_pending (show (IssueCall.numbered tx).pending = none from rfl)]
          exact h.inside (by rw [hcall]; rfl) fun row hrow => by cases hrow
      | @insert tx rank fresh =>
          rw [append_pending (show (IssueCall.ranked tx rank).pending = none from rfl)]
          refine h.inside (by rw [hcall]; rfl) fun row hrow => ⟨tx, rfl, ?_⟩
          cases hrow
          exact ⟨rfl, rfl⟩
      | commit tx row => exact h.commit hcall _

theorem Counted.run {s' : IssueCalls τ} {as : List (τ × CallAct)} (h : s.Counted projectId)
    (hrun : Run (Steps Enabled (IssueCalls.next organizationId)) s as s') :
    Advances projectId s s' := by
  refine hrun.invariant (P := Advances projectId s) ?_ (.refl h)
  intro s₁ a s₂ hs hstep
  obtain ⟨henabled, rfl⟩ := hstep
  exact hs.trans (hs.counted.next henabled)

end Steps

end IssueCalls

/-- **Numbers are given in order, each once.**  A project was just created, and any number of calls
take turns, each free to fail at any step.  In every state `s` the numbers given to the committed
creates are `1, 2, …, issueCounter` in the order of the commits; the issues of the project have some
of them; and one of them that no issue has any more is the number of no issue in any later state. -/
theorem numbers_given [DecidableEq τ] {organizationId : JsString} {project : Project}
    {s₀ s : IssueCalls τ} {as : List (τ × CallAct)}
    (h₀ : NumberingStart organizationId project s₀)
    (hrun : Run (Steps IssueCalls.Enabled (IssueCalls.next organizationId)) s₀ as s) :
    (∃ p ∈ s.world.db.projects, p.id = project.id ∧
      s.given project.id = List.range' 1 p.issueCounter) ∧
    (∀ i ∈ s.world.db.issues, i.projectId = project.id → i.number ∈ s.given project.id) ∧
    ∀ bs s', Run (Steps IssueCalls.Enabled (IssueCalls.next organizationId)) s bs s' →
      s.given project.id <+: s'.given project.id ∧
        ∀ number ∈ s.given project.id, s.Vacant project.id number → s'.Vacant project.id number := by
  have hs : s.Counted project.id := (IssueCalls.Counted.run (.start h₀) hrun).counted
  refine ⟨hs.counter, hs.rows, fun bs s' hlater => ?_⟩
  have hadvances := hs.run hlater
  exact ⟨hadvances.given, fun number hgiven hvacant => hadvances.vacant hgiven hvacant⟩

end Numbers

/-! ### A rollback and a removal -/

namespace IssueCalls.Samples

/-- No project yet. -/
def before : World := { Demo.world with db := { Demo.world.db with projects := [] } }

def newProject : CreateProjectInput := ⟨js "Launch", js "LAUNCH", none, none⟩

def draw (id : Cuid) : Gen := ⟨0, fun _ => id, fun _ => []⟩

def project : Project :=
  ProjectsService.newProject Demo.orgId.val newProject (draw Demo.projectId)

open Demo (firstId secondId)

/-- Three creates, and the removal of the first issue. -/
def request (t : Client) : IssueRequest :=
  if t = .fourth then .remove Demo.userId.val firstId.val
  else .create Demo.userId.val newProject.key { title := js "Task" }

def start : IssueCalls Client where
  world := (ProjectsService.create Demo.orgId.val Demo.userId.val newProject
    (draw Demo.projectId) before).2
  call t := .outside (.start (request t))
  created := []

theorem before_sound : TenantSound before.db := by constructor <;> decide

theorem start_ok : NumberingStart Demo.orgId.val project start where
  created := ⟨Demo.userId.val, newProject, draw Demo.projectId, before, before_sound, by decide⟩
  calls t := ⟨request t, rfl⟩
  none := rfl

abbrev turn (t : Client) (id : Cuid) : Client × CallAct := (t, .run false (draw id))

/-- The second create is rolled back after its increment, which the third has to wait for. -/
def made : List (Client × CallAct) :=
  [turn .first firstId, turn .second firstId, turn .third firstId, turn .first firstId, turn .first firstId,
    turn .first firstId, turn .first firstId, turn .second secondId, turn .second secondId,
    (.second, .fail (.error [])), turn .third secondId, turn .third secondId, turn .third secondId,
    turn .third secondId]

/-- The first issue is removed. -/
def removed : List (Client × CallAct) := [turn .fourth secondId, turn .fourth secondId]

def play (as : List (Client × CallAct)) (s : IssueCalls Client) : IssueCalls Client :=
  as.foldl (next Demo.orgId.val) s

end IssueCalls.Samples

open IssueCalls IssueCalls.Samples in
theorem numbers_given_sample :
    (∃ p ∈ (play made start).world.db.projects, p.id = project.id ∧
      (play made start).given project.id = List.range' 1 p.issueCounter) ∧
    (∀ i ∈ (play made start).world.db.issues, i.projectId = project.id →
      i.number ∈ (play made start).given project.id) ∧
    ∀ bs s', Run (Steps Enabled (next Demo.orgId.val)) (play made start) bs s' →
      (play made start).given project.id <+: s'.given project.id ∧
        ∀ number ∈ (play made start).given project.id,
          (play made start).Vacant project.id number → s'.Vacant project.id number :=
  numbers_given start_ok (Along.run (show Along Enabled (next Demo.orgId.val) start made by decide))

open IssueCalls IssueCalls.Samples in
example : (play made start).given project.id = [1, 2] ∧
    (play removed (play made start)).world.db.issues.map Issue.number = [2] := by decide

end PmSaas
