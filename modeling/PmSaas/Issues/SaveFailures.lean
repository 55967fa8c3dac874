import PmSaas.Issues.CreateTransaction

/-!
# `create` and `update` when an external call fails

Both methods commit an issue and then write the audit row, tell the room and queue a notification.
`AuditService.record` swallows its failures; `NotificationsService.enqueue` does not, so a queue
that is down turns a committed request into an error.

* `Saving`: what holds between two calls: nothing is written, or the write is committed and only the
  notification is left to fail;
* `SaveRequest.queueAdd_iff`: when a request calls `queue.add`: right after the broadcast, if its
  write goes through and assigns the issue to somebody else;
* `save_failure_iff`: whichever call fails, a request that throws has left the issues and the
  projects as they were, exactly when the failing call is not that one.
-/

namespace PmSaas

open Table IssuesService

/-- A `create` or an `update`. -/
inductive SaveRequest where
  | create (actorId projectKey : JsString) (input : CreateIssueInput)
  | update (actorId issueId : JsString) (input : UpdateIssueInput)

def SaveRequest.request : SaveRequest → IssueRequest
  | .create actorId projectKey input => .create actorId projectKey input
  | .update actorId issueId input => .update actorId issueId input

def SaveRequest.actorId : SaveRequest → JsString
  | .create actorId _ _ => actorId
  | .update actorId _ _ => actorId

/-- Whom the request assigns the issue to, if it is somebody new. -/
def SaveRequest.newAssignee (organizationId : JsString) (db : Db) :
    SaveRequest → Option JsString
  | .create _ _ input => truthy input.assigneeId
  | .update _ issueId input =>
      (db.findIssue organizationId issueId).bind fun before =>
        (connectedUser input).filter fun recipientId => some recipientId ≠ before.assigneeId

/-- The calls up to the commit: the project, the three statements of the transaction and its
`COMMIT`; or the issue and its `UPDATE`.  The audit row, the broadcast and the notification come
after them. -/
def SaveRequest.writeCalls : SaveRequest → ℕ
  | .create .. => 5
  | .update .. => 2

/-- The write goes through in this database: what the request refers to is there, and the id that
is drawn for the insert is new. -/
def SaveRequest.Commits (organizationId : JsString) (gs : ℕ → Gen) (db : Db) : SaveRequest → Prop
  | .create actorId projectKey input =>
      ∃ project number rank, db.findProject organizationId projectKey = some project ∧
        (∃ db', db.incrementIssueCounter project.id (gs 1).now = .ok (number, db')) ∧
        appendRank (db.lastInColumn project.id input.status) = .ok rank ∧
        ∃ r, db.createIssue (newIssue organizationId actorId project.id input (gs 3) number rank)
          input.labelIds = .ok r
  | .update _ issueId input =>
      (∃ before, db.findIssue organizationId issueId = some before) ∧
        ∃ r, db.updateIssue issueId (connectedUser input) (input.apply (gs 1).now) = .ok r

namespace IssueCall

/-- The next external call fails with `e`.  A failed statement writes nothing, and its transaction
is rolled back; a failed audit insert is logged and swallowed; a job for the actor is not queued,
and the broadcast is no external call. -/
def fails (organizationId : JsString) (g : Gen) (e : Exn) : IssueCall → World → IssueCall × World
  | .outside (.auditing a), w => (.outside (.emitting a), w)
  | .outside (.emitting a), w => step organizationId false g (.outside (.emitting a)) w
  | .outside (.notifying job), w =>
      if some job.recipientId = job.actorId then
        step organizationId false g (.outside (.notifying job)) w
      else (.outside (.done (.error e)), w)
  | call, w => (call.failed e, w)

/-- The next external call is `queue.add`. -/
def QueueAdd : IssueCall → Prop
  | .outside (.notifying job) => some job.recipientId ≠ job.actorId
  | _ => False

end IssueCall

namespace SaveRequest

/-- The request alone, after its first `n` calls; the `j`-th draws from `gs j`, and the `k`-th, if
there is such a `k`, fails with `e`. -/
def after (organizationId : JsString) (gs : ℕ → Gen) (failing : Option (ℕ × Exn))
    (r : SaveRequest) (w : World) : ℕ → IssueCall × World
  | 0 => (.outside (.start r.request), w)
  | n + 1 =>
      let s := after organizationId gs failing r w n
      match failing with
      | some (k, e) =>
          if n = k then s.1.fails organizationId (gs n) e s.2
          else s.1.step organizationId false (gs n) s.2
      | none => s.1.step organizationId false (gs n) s.2

/-- The issues and the projects are as before when the request throws. -/
def AllOrNothing (organizationId : JsString) (gs : ℕ → Gen) (k : ℕ) (e : Exn) (r : SaveRequest)
    (w : World) : Prop :=
  ∀ n e', (r.after organizationId gs (some (k, e)) w n).1 = .outside (.done (.error e')) →
    (r.after organizationId gs (some (k, e)) w n).2.db.issues = w.db.issues ∧
    (r.after organizationId gs (some (k, e)) w n).2.db.projects = w.db.projects

end SaveRequest

/-- What a committed request still announces: the job is for the new assignee, and whoever gets one
was not the assignee before, so that the issues are not what they were. -/
structure Announces (organizationId : JsString) (r : SaveRequest) (w₀ w : World)
    (job : Option NotificationJob) : Prop where
  addressed : ∀ j ∈ job, j.actorId = some r.actorId ∧
    r.newAssignee organizationId w₀.db = some j.recipientId
  written : ∀ _ ∈ job, w.db.issues ≠ w₀.db.issues

/-- What holds of a request between two calls: the world is as it was, or the write is committed and
the request does not throw any more. -/
def Saving (organizationId : JsString) (r : SaveRequest) (w₀ : World) : IssueCall × World → Prop
  | (.outside (.start request), w) => request = r.request ∧ w = w₀
  | (.outside (.creating _ actorId input), w) =>
      (∃ projectKey, r = .create actorId projectKey input) ∧ w = w₀
  | (.outside (.updating before actorId issueId input), w) =>
      r = .update actorId issueId input ∧ w₀.db.findIssue organizationId issueId = some before ∧
        w = w₀
  | (.outside (.placing ..), _) => False
  | (.outside (.removing ..), _) => False
  | (.outside (.auditing a), w) => Announces organizationId r w₀ w a.job
  | (.outside (.emitting a), w) => Announces organizationId r w₀ w a.job
  | (.outside (.notifying job), w) => Announces organizationId r w₀ w (some job)
  | (.outside (.done (.ok ())), _) => True
  | (.outside (.done (.error _)), w) => w = w₀
  | (.numbered tx, w) => (∃ projectKey, r = .create tx.actorId projectKey tx.input) ∧ w = w₀
  | (.ranked tx _, w) => (∃ projectKey, r = .create tx.actorId projectKey tx.input) ∧ w = w₀
  | (.inserted tx row, w) =>
      (∃ projectKey, r = .create tx.actorId projectKey tx.input) ∧
        row.assigneeId = tx.input.assigneeId ∧ w = w₀

section Save

variable {organizationId : JsString} {r : SaveRequest} {w₀ : World}

theorem Announces.congr {w w' : World} {job : Option NotificationJob}
    (h : Announces organizationId r w₀ w job) (hissues : w'.db.issues = w.db.issues) :
    Announces organizationId r w₀ w' job :=
  ⟨h.addressed, fun j hj => hissues ▸ h.written j hj⟩

/-- The commit of a `create` adds a row. -/
theorem Announces.created {tx : CreateTx} {row : Issue} {projectKey : JsString}
    (hrow : row.assigneeId = tx.input.assigneeId) :
    Announces organizationId (.create tx.actorId projectKey tx.input) w₀
      { w₀ with db := w₀.db.commitCreate tx row }
      (createdAnnouncement organizationId tx.actorId tx.projectId (issueSelect row)).job where
  addressed := by
    intro j hj
    obtain ⟨recipientId, hrecipient, rfl⟩ := Option.map_eq_some_iff.1 hj
    refine ⟨rfl, ?_⟩
    rw [SaveRequest.newAssignee, ← hrow]
    exact hrecipient
  written := by
    intro _ _ heq
    have hlen := congrArg List.length heq
    simp [Db.commitCreate, Db.insertIssue] at hlen

/-- An update that notifies somebody has given the issue another assignee. -/
theorem Announces.updated {before row : Issue} {actorId issueId : JsString}
    {input : UpdateIssueInput} {now : Date}
    (hbefore : w₀.db.findIssue organizationId issueId = some before) :
    Announces organizationId (.update actorId issueId input) w₀
      { w₀ with db := w₀.db.rewriteIssue issueId (input.apply now) }
      (updatedAnnouncement organizationId actorId input before (issueSelect row)).job where
  addressed := by
    intro j hj
    obtain ⟨recipientId, hrecipient, hj⟩ := Option.bind_eq_some_iff.1 hj
    split at hj
    · cases hj
    · rename_i hnew
      obtain rfl := Option.some.inj hj
      refine ⟨rfl, ?_⟩
      rw [SaveRequest.newAssignee, hbefore, Option.bind_some, hrecipient, Option.filter_some,
        if_pos (decide_eq_true hnew)]
      rfl
  written := by
    intro j hj heq
    obtain ⟨recipientId, hrecipient, hj⟩ := Option.bind_eq_some_iff.1 hj
    obtain ⟨hmem, rfl, -⟩ := Db.findIssue_some hbefore
    have hsame := List.map_inj_left.1 (heq.trans (List.map_id w₀.db.issues).symm) before hmem
    simp only [beq_self_eq_true, if_true, id] at hsame
    have hassignee : (input.apply now before).assigneeId = some recipientId := by
      obtain ⟨a, ha, hconnect⟩ := Option.bind_eq_some_iff.1 hrecipient
      simp [UpdateIssueInput.apply, ha, hconnect]
    rw [hsame] at hassignee
    rw [if_pos hassignee.symm] at hj
    cases hj

/-- **A call that succeeds keeps `Saving`.** -/
theorem Saving.step {call : IssueCall} {w : World} (h : Saving organizationId r w₀ (call, w))
    (g : Gen) : Saving organizationId r w₀ (call.step organizationId false g w) := by
  cases call with
  | outside task =>
      cases task with
      | start request =>
          obtain ⟨rfl, rfl⟩ := h
          rw [IssueCall.step_outside false fun _ _ _ h => by cases h]
          cases r with
          | create actorId projectKey input =>
              rw [SaveRequest.request, IssueTask.step]
              cases w.db.findProject organizationId projectKey with
              | none => rfl
              | some project => exact ⟨⟨projectKey, rfl⟩, rfl⟩
          | update actorId issueId input =>
              rw [SaveRequest.request, IssueTask.step]
              cases hbefore : w.db.findIssue organizationId issueId with
              | none => rfl
              | some before => exact ⟨rfl, hbefore, rfl⟩
      | creating projectId actorId input =>
          obtain ⟨hrequest, rfl⟩ := h
          rw [IssueCall.step]
          cases w.db.incrementIssueCounter projectId g.now with
          | error e => rfl
          | ok result => exact ⟨hrequest, rfl⟩
      | updating before actorId issueId input =>
          obtain ⟨rfl, hbefore, rfl⟩ := h
          rw [IssueCall.step_outside false (fun _ _ _ h => by cases h), IssueTask.step]
          cases hu : w.db.updateIssue issueId (connectedUser input) (input.apply g.now) with
          | error e => rfl
          | ok result =>
              obtain ⟨row, db⟩ := result
              obtain ⟨_, _, _, rfl⟩ := Db.updateIssue_ok hu
              exact Announces.updated hbefore
      | placing issue actorId input above below => exact h.elim
      | removing issue actorId => exact h.elim
      | auditing a =>
          have hlater : Aftermath a.entry.organizationId w (w.recorded a.entry (g.cuid 0) g.now) :=
            .recorded (g.cuid 0) g.now w
          exact Announces.congr h hlater.issues
      | emitting a =>
          have hannounces : Announces organizationId r w₀ w a.job := h
          rw [IssueCall.step_outside false (fun _ _ _ h => by cases h), IssueTask.step]
          cases hjob : a.job with
          | none => trivial
          | some job =>
              rw [hjob] at hannounces
              exact hannounces.congr rfl
      | notifying job => trivial
      | done answer => exact h
  | numbered tx =>
      obtain ⟨hrequest, rfl⟩ := h
      rw [IssueCall.step]
      cases appendRank (w.db.lastInColumn tx.projectId tx.input.status) with
      | error e => rfl
      | ok rank => exact ⟨hrequest, rfl⟩
  | ranked tx rank =>
      obtain ⟨hrequest, rfl⟩ := h
      rw [IssueCall.step]
      cases w.db.createIssue (newIssue organizationId tx.actorId tx.projectId tx.input g tx.number
          rank) tx.input.labelIds with
      | error e => rfl
      | ok result => exact ⟨hrequest, rfl, rfl⟩
  | inserted tx row =>
      obtain ⟨⟨projectKey, rfl⟩, hrow, rfl⟩ := h
      exact Announces.created hrow

/-- **So does a call that fails, unless it is `queue.add`.** -/
theorem Saving.fails {call : IssueCall} {w : World} (h : Saving organizationId r w₀ (call, w))
    (g : Gen) (e : Exn) (hqueue : ¬call.QueueAdd) :
    Saving organizationId r w₀ (call.fails organizationId g e w) := by
  cases call with
  | outside task =>
      cases task with
      | start request => exact h.2
      | creating projectId actorId input => exact h.2
      | updating before actorId issueId input => exact h.2.2
      | placing issue actorId input above below => exact h.elim
      | removing issue actorId => exact h.elim
      | auditing a => exact h
      | emitting a => exact h.step g
      | notifying job =>
          have hself : some job.recipientId = job.actorId := not_not.1 hqueue
          rw [IssueCall.fails, if_pos hself]
          exact h.step g
      | done answer => exact h
  | numbered tx => exact h.2
  | ranked tx rank => exact h.2
  | inserted tx row => exact h.2.2

/-- A job is the last thing a committed request is waiting for, and it fails. -/
theorem Saving.queueAdd {call : IssueCall} {w : World} (h : Saving organizationId r w₀ (call, w))
    (g : Gen) (e : Exn) (hqueue : call.QueueAdd) :
    call.fails organizationId g e w = (.outside (.done (.error e)), w) ∧
      w.db.issues ≠ w₀.db.issues ∧
      ∃ recipientId ∈ r.newAssignee organizationId w₀.db, recipientId ≠ r.actorId := by
  cases call with
  | outside task =>
      cases task with
      | notifying job =>
          have hannounces : Announces organizationId r w₀ w (some job) := h
          have hne : some job.recipientId ≠ job.actorId := hqueue
          obtain ⟨hactor, hassignee⟩ := hannounces.addressed job rfl
          refine ⟨if_neg hne, hannounces.written job rfl, job.recipientId, hassignee, ?_⟩
          intro heq
          rw [hactor, heq] at hne
          exact hne rfl
      | _ => exact hqueue.elim
  | _ => exact hqueue.elim

end Save

/-! ### Runs -/

section Runs

variable {organizationId : JsString} {gs : ℕ → Gen} {r : SaveRequest} {w : World} {k : ℕ} {e : Exn}

/-- Up to its failing call the request runs as it would otherwise. -/
theorem SaveRequest.after_eq {n : ℕ} (hn : n ≤ k) :
    r.after organizationId gs (some (k, e)) w n = r.after organizationId gs none w n := by
  induction n with
  | zero => rfl
  | succ n ih =>
      have hne : n ≠ k := by omega
      simp only [SaveRequest.after, if_neg hne, ih (by omega)]

theorem SaveRequest.saving (r : SaveRequest) (w : World) (n : ℕ) :
    Saving organizationId r w (r.after organizationId gs none w n) := by
  induction n with
  | zero => exact ⟨rfl, rfl⟩
  | succ n ih => exact ih.step (gs n)

/-- **`Saving` survives the failing call.** -/
theorem SaveRequest.saving_failing
    (hqueue : ¬(r.after organizationId gs none w k).1.QueueAdd) (n : ℕ) :
    Saving organizationId r w (r.after organizationId gs (some (k, e)) w n) := by
  induction n with
  | zero => exact ⟨rfl, rfl⟩
  | succ n ih =>
      by_cases hn : n = k
      · subst hn
        simp only [SaveRequest.after, if_true]
        rw [SaveRequest.after_eq le_rfl] at ih ⊢
        exact ih.fails (gs n) e hqueue
      · simp only [SaveRequest.after, if_neg hn]
        exact ih.step (gs n)

theorem SaveRequest.after_next {n : ℕ} {call : IssueCall} {w' : World}
    (h : r.after organizationId gs none w n = (call, w')) :
    r.after organizationId gs none w (n + 1) = call.step organizationId false (gs n) w' := by
  rw [after, h]

theorem SaveRequest.after_done {n m : ℕ} (hn : n ≤ m) {answer : Except Exn Unit} {w' : World}
    (h : r.after organizationId gs none w n = (.outside (.done answer), w')) :
    r.after organizationId gs none w m = (.outside (.done answer), w') := by
  induction m, hn using Nat.le_induction with
  | base => exact h
  | succ m _ ih =>
      simp only [SaveRequest.after, ih]
      rfl

/-- A request that has queued its notification is answered. -/
theorem SaveRequest.after_queueAdd (hqueue : (r.after organizationId gs none w k).1.QueueAdd) :
    ∃ w', r.after organizationId gs none w (k + 1) = (.outside (.done (.ok ())), w') := by
  simp only [SaveRequest.after]
  generalize r.after organizationId gs none w k = s at hqueue ⊢
  obtain ⟨call, w'⟩ := s
  cases call with
  | outside task =>
      cases task with
      | notifying job => exact ⟨_, rfl⟩
      | _ => exact hqueue.elim
  | _ => exact hqueue.elim

/-- What the calls up to the commit end in: the announcement, with a job when the issue is given to
somebody new; or an error, when a row is missing or a constraint stands in the way. -/
def SaveRequest.Written (organizationId : JsString) (gs : ℕ → Gen) (r : SaveRequest) (w : World) :
    Prop :=
  (r.Commits organizationId gs w.db ∧ ∃ a w',
    r.after organizationId gs none w r.writeCalls = (.outside (.auditing a), w') ∧
      a.job.isSome = (r.newAssignee organizationId w.db).isSome) ∨
  (¬r.Commits organizationId gs w.db ∧ ∃ e w',
    r.after organizationId gs none w r.writeCalls = (.outside (.done (.error e)), w'))

theorem SaveRequest.written_create (actorId projectKey : JsString) (input : CreateIssueInput) :
    (SaveRequest.create actorId projectKey input).Written organizationId gs w := by
  have hproject : (SaveRequest.create actorId projectKey input).after organizationId gs none w 1 =
      (.outside (IssueTask.found (w.db.findProject organizationId projectKey)
        "Project not found" fun project => .creating project.id actorId input), w) := rfl
  cases hp : w.db.findProject organizationId projectKey with
  | none =>
      rw [hp] at hproject
      exact .inr ⟨by simp [Commits, hp], _, w, after_done (by decide : 1 ≤ 5) hproject⟩
  | some project =>
      rw [hp, IssueTask.found] at hproject
      have hnumber := after_next hproject
      rw [IssueCall.step] at hnumber
      cases hn : w.db.incrementIssueCounter project.id (gs 1).now with
      | error e =>
          rw [hn] at hnumber
          exact .inr ⟨by simp [Commits, hp, hn], e, w, after_done (by decide : 2 ≤ 5) hnumber⟩
      | ok counted =>
          obtain ⟨number, db⟩ := counted
          rw [hn] at hnumber
          have hrank := after_next hnumber
          rw [IssueCall.step] at hrank
          cases hr : appendRank (w.db.lastInColumn project.id input.status) with
          | error e =>
              rw [hr] at hrank
              exact .inr ⟨by simp [Commits, hp, hn, hr], e, w, after_done (by decide : 3 ≤ 5) hrank⟩
          | ok rank =>
              rw [hr] at hrank
              have hinsert := after_next hrank
              rw [IssueCall.step] at hinsert
              cases hi : w.db.createIssue (newIssue organizationId actorId project.id input (gs 3)
                  number rank) input.labelIds with
              | error e =>
                  rw [hi] at hinsert
                  exact .inr ⟨by simp [Commits, hp, hn, hr, hi], e, w,
                    after_done (by decide : 4 ≤ 5) hinsert⟩
              | ok inserted =>
                  rw [hi] at hinsert
                  have hcommit := after_next hinsert
                  exact .inl ⟨⟨project, number, rank, hp, ⟨db, hn⟩, hr, inserted, hi⟩, _, _,
                    hcommit, Option.isSome_map⟩

theorem SaveRequest.written_update (actorId issueId : JsString) (input : UpdateIssueInput) :
    (SaveRequest.update actorId issueId input).Written organizationId gs w := by
  have hread : (SaveRequest.update actorId issueId input).after organizationId gs none w 1 =
      (.outside (IssueTask.found (w.db.findIssue organizationId issueId)
        "Issue not found" fun before => .updating before actorId issueId input), w) := rfl
  cases hb : w.db.findIssue organizationId issueId with
  | none =>
      rw [hb] at hread
      exact .inr ⟨by simp [Commits, hb], _, w, after_done (by decide : 1 ≤ 2) hread⟩
  | some before =>
      rw [hb, IssueTask.found] at hread
      have hwrite := after_next hread
      rw [IssueCall.step_outside false (fun _ _ _ h => by cases h), IssueTask.step] at hwrite
      cases hu : w.db.updateIssue issueId (connectedUser input) (input.apply (gs 1).now) with
      | error e =>
          rw [hu] at hwrite
          exact .inr ⟨by simp [Commits, hb, hu], e, w, hwrite⟩
      | ok result =>
          rw [hu] at hwrite
          refine .inl ⟨⟨⟨before, hb⟩, result, hu⟩, _, _, hwrite, ?_⟩
          simp only [newAssignee, hb, Option.bind_some, updatedAnnouncement]
          cases connectedUser input with
          | none => rfl
          | some recipientId =>
              by_cases hsame : some recipientId = before.assigneeId
              · simp [← hsame]
              · simp [hsame]

/-- **The calls up to the commit.** -/
theorem SaveRequest.written (r : SaveRequest) : r.Written organizationId gs w := by
  cases r with
  | create actorId projectKey input => exact written_create actorId projectKey input
  | update actorId issueId input => exact written_update actorId issueId input

/-- **When `queue.add` is called**: after the commit, the audit row and the broadcast, for an issue
that is given to somebody new other than the actor. -/
theorem SaveRequest.queueAdd_iff :
    (r.after organizationId gs none w k).1.QueueAdd ↔
      k = r.writeCalls + 2 ∧ r.Commits organizationId gs w.db ∧
        ∃ recipientId ∈ r.newAssignee organizationId w.db, recipientId ≠ r.actorId := by
  obtain ⟨hcommits, a, w₁, hwritten, hjob⟩ | ⟨hno, e, w', hwritten⟩ := r.written (w := w)
  · have haudited := after_next hwritten
    rw [IssueCall.step_outside false (fun _ _ _ h => by cases h), IssueTask.step] at haudited
    have hemitted := after_next haudited
    rw [IssueCall.step_outside false (fun _ _ _ h => by cases h), IssueTask.step] at hemitted
    constructor
    · intro hqueue
      have hassigns := ((r.saving w k).queueAdd (gs k) (.error []) hqueue).2.2
      refine ⟨?_, hcommits, hassigns⟩
      obtain ⟨w', hnext⟩ := after_queueAdd hqueue
      obtain hlt | rfl | hgt := lt_trichotomy k (r.writeCalls + 2)
      · -- the request would be answered before it queues anything
        have hk : k ≤ r.writeCalls ∨ k = r.writeCalls + 1 := by omega
        obtain hle | rfl := hk
        · rw [after_done (by omega : k + 1 ≤ r.writeCalls + 1) hnext] at haudited
          cases haudited
        · rw [haudited] at hqueue
          exact hqueue.elim
      · rfl
      · have hanswered := after_next hemitted
        rw [IssueCall.step_outside false (fun _ _ _ h => by split at h <;> cases h)] at hanswered
        cases hj : a.job with
        | none =>
            rw [hj] at hemitted
            rw [after_done (by omega) hemitted] at hqueue
            exact hqueue.elim
        | some job =>
            rw [hj] at hanswered
            rw [after_done (by omega) hanswered] at hqueue
            exact hqueue.elim
    · rintro ⟨rfl, -, recipientId, hassignee, hother⟩
      rw [hassignee] at hjob
      obtain ⟨job, hjob⟩ := Option.isSome_iff_exists.1 hjob
      have hannounces : Saving organizationId r w (r.after organizationId gs none w r.writeCalls) :=
        r.saving w r.writeCalls
      rw [hwritten] at hannounces
      obtain ⟨hactor, hrecipient⟩ := hannounces.addressed job hjob
      rw [hemitted, hjob]
      intro hself
      rw [hactor] at hself
      obtain rfl := Option.some.inj (hassignee.symm.trans hrecipient)
      exact hother (Option.some.inj hself)
  · refine iff_of_false (fun hqueue => ?_) fun h => hno h.2.1
    obtain ⟨w'', hnext⟩ := after_queueAdd hqueue
    rcases Nat.le_total (k + 1) r.writeCalls with hle | hle
    · rw [after_done hle hnext] at hwritten
      cases hwritten
    · rw [after_done hle hwritten] at hnext
      cases hnext

end Runs

/-- **A failing call.**  Let the `k`-th call of a `create` or an `update` fail.  If the request
throws, the issues and the projects are as they were before it, exactly when that call is not
`queue.add`, the one call after the commit whose failure is not caught: the third one after a write
that goes through, for an issue that is given to somebody new other than the actor. -/
theorem save_failure_iff (organizationId : JsString) (gs : ℕ → Gen) (k : ℕ) (e : Exn)
    (r : SaveRequest) (w : World) :
    r.AllOrNothing organizationId gs k e w ↔
      ¬(k = r.writeCalls + 2 ∧ r.Commits organizationId gs w.db ∧
        ∃ recipientId ∈ r.newAssignee organizationId w.db, recipientId ≠ r.actorId) := by
  rw [← SaveRequest.queueAdd_iff]
  constructor
  · intro hall hqueue
    obtain ⟨hfails, hissues, -⟩ := (r.saving w k).queueAdd (gs k) e hqueue
    have hafter : r.after organizationId gs (some (k, e)) w (k + 1) =
        (.outside (.done (.error e)), (r.after organizationId gs none w k).2) := by
      simp only [SaveRequest.after, if_true]
      rw [SaveRequest.after_eq le_rfl, hfails]
    have hkept := (hall (k + 1) e (by rw [hafter])).1
    rw [hafter] at hkept
    exact hissues hkept
  · intro hqueue n e' hthrows
    have hsaving := r.saving_failing (e := e) hqueue n
    generalize r.after organizationId gs (some (k, e)) w n = s at hsaving hthrows
    obtain ⟨call, w'⟩ := s
    obtain rfl : call = .outside (.done (.error e')) := hthrows
    obtain rfl : w' = w := hsaving
    exact ⟨rfl, rfl⟩

/-! ### A queue that is down -/

namespace SaveFailures.Samples

open Demo (firstId secondId)

def colleague : User :=
  ⟨secondId.val, js "bob@demo.test", none, js "Bob", none, 0, 0, true, true, true⟩

def world : World :=
  { Demo.world with db := { Demo.world.db with users := [Demo.user, colleague] } }

/-- A new issue for a colleague. -/
def request : SaveRequest :=
  .create Demo.userId.val Demo.project.key
    { title := js "Task", assigneeId := some secondId.val }

def supply (_ : ℕ) : Gen := ⟨0, fun _ => firstId, fun _ => []⟩

end SaveFailures.Samples

open SaveFailures.Samples in
/-- The issue is there, and the request is answered with an error. -/
theorem save_queue_down :
    ¬ ∀ (organizationId : JsString) (gs : ℕ → Gen) (k : ℕ) (e : Exn) (r : SaveRequest) (w : World),
      r.AllOrNothing organizationId gs k e w := by
  intro hall
  have hkept := hall Demo.orgId.val supply 7 (.error []) request world 8 (.error []) rfl
  exact absurd hkept.1 (by decide)

end PmSaas
