import PmSaas.Issues.CreateTransaction
import PmSaas.Issues.RankRaces

/-!
# The ranks a project stores

`rankBetween` returns a rank between its bounds only if the bounds are as it makes them itself: it
reads a missing digit of the upper bound as one past the last digit, so above `A0` it would go on
from `A`.  No request can store another rank, whatever it names and whenever its calls are made.

* `IssueCall.Keeps`: what a call has read and computed is well formed, and so is what it writes;
* `rank_stored`: every rank of a project that starts empty is well formed, and every call of
  `rankBetween` throws or answers a rank strictly between its bounds.
-/

namespace PmSaas

open SortBy Table TransitionSystem IssuesService

/-- The ranks of the project are well formed. -/
def WellRanked (projectId : JsString) (db : Db) : Prop :=
  ∀ i ∈ db.issues, i.projectId = projectId → WellFormedRank i.rank

/-- `rankBetween` throws because the lower bound does not sort before the upper one, or returns a
rank strictly between them. -/
def RankAnswer (above below : Option JsString) : Prop :=
  (∃ a b, above = some a ∧ below = some b ∧ ¬a < b ∧
    rankBetween above below = .error (.inverted a b)) ∨
  ∃ rank, rankBetween above below = .ok rank ∧ InGap above below rank

theorem rankAnswer_of_wellFormed {above below : Option JsString}
    (habove : ∀ x ∈ above, WellFormedRank x) (hbelow : ∀ y ∈ below, WellFormedRank y) :
    RankAnswer above below := by
  by_cases hsorted : ∀ x ∈ above, ∀ y ∈ below, x < y
  · exact .inr ⟨_, rankBetween_ok hsorted, lt_rankMid habove,
      rankMid_lt ⟨habove, hbelow, hsorted⟩⟩
  · simp only [not_forall] at hsorted
    obtain ⟨a, rfl, b, rfl, hnot⟩ := hsorted
    refine .inl ⟨a, b, rfl, rfl, hnot, ?_⟩
    rw [rankBetween_eq]
    exact if_neg hnot

namespace IssueCall

/-- The bounds of the `rankBetween` call that the next step makes. -/
def rankArgs (db : Db) : IssueCall → Option (Option JsString × Option JsString)
  | .outside (.placing _ _ _ (some above) (some below)) => some (above, below)
  | .numbered tx =>
      (db.lastInColumn tx.projectId tx.input.status).map fun last => (some last.rank, none)
  | _ => none

/-- The call is on the project, and the ranks that it has read or computed are well formed. -/
def Keeps (projectId : JsString) : IssueCall → Prop
  | .outside (.creating p _ _) => p = projectId
  | .outside (.placing issue _ _ above below) =>
      issue.projectId = projectId ∧ ReadRank above ∧ ReadRank below
  | .outside _ => True
  | .numbered tx => tx.projectId = projectId
  | .ranked tx rank => tx.projectId = projectId ∧ WellFormedRank rank
  | .inserted _ row => row.projectId = projectId ∧ WellFormedRank row.rank

/-- A request that is about to begin is on the project, or on nothing there is. -/
def OnProject (organizationId projectId : JsString) (db : Db) : IssueCall → Prop
  | .outside (.start request) => ∀ p ∈ request.project organizationId db, p = projectId
  | _ => True

end IssueCall

/-- Every request is on the project. -/
def IssueCalls.OnProject {τ : Type*} (organizationId projectId : JsString) (s : IssueCalls τ)
    (a : τ × CallAct) : Prop :=
  (s.call a.1).OnProject organizationId projectId s.world.db

instance IssueCall.OnProject.decidable (organizationId projectId : JsString) (db : Db) :
    ∀ call, Decidable (IssueCall.OnProject organizationId projectId db call)
  | .outside (.start request) =>
      inferInstanceAs (Decidable (∀ p ∈ request.project organizationId db, p = projectId))
  | .outside (.creating ..) => inferInstanceAs (Decidable True)
  | .outside (.updating ..) => inferInstanceAs (Decidable True)
  | .outside (.placing ..) => inferInstanceAs (Decidable True)
  | .outside (.removing ..) => inferInstanceAs (Decidable True)
  | .outside (.auditing _) => inferInstanceAs (Decidable True)
  | .outside (.emitting _) => inferInstanceAs (Decidable True)
  | .outside (.notifying _) => inferInstanceAs (Decidable True)
  | .outside (.done _) => inferInstanceAs (Decidable True)
  | .numbered _ => inferInstanceAs (Decidable True)
  | .ranked .. => inferInstanceAs (Decidable True)
  | .inserted .. => inferInstanceAs (Decidable True)

instance IssueCalls.OnProject.decidable {τ : Type*} (organizationId projectId : JsString)
    (s : IssueCalls τ) (a : τ × CallAct) : Decidable (s.OnProject organizationId projectId a) :=
  IssueCall.OnProject.decidable organizationId projectId s.world.db (s.call a.1)

/-- The project has no issues, and the calls are about to begin. -/
structure EmptyStart {τ : Type*} (projectId : JsString) (s : IssueCalls τ) : Prop where
  none : ∀ i ∈ s.world.db.issues, i.projectId ≠ projectId
  calls : ∀ t, ∃ request, s.call t = .outside (.start request)

/-! ### What the writes store -/

section Writes

variable {projectId : JsString} {db db' : Db}

theorem WellRanked.of_issues (h : WellRanked projectId db) (hissues : db'.issues = db.issues) :
    WellRanked projectId db' := by
  rw [WellRanked, hissues]
  exact h

/-- A row is rewritten with a well-formed rank, or keeps the one it has. -/
theorem WellRanked.rewriteIssue (h : WellRanked projectId db) (issueId : JsString)
    {f : Issue → Issue} (hproject : ∀ i, (f i).projectId = i.projectId)
    (hrank : ∀ i, (f i).rank = i.rank ∨ WellFormedRank (f i).rank) :
    WellRanked projectId (db.rewriteIssue issueId f) := by
  intro i hi hmine
  obtain ⟨j, hj, rfl⟩ := mem_updateWhere.1 hi
  split at hmine
  · rename_i hid
    rw [if_pos hid]
    rcases hrank j with hsame | hwell
    · rw [hsame]
      exact h j hj ((hproject j).symm.trans hmine)
    · exact hwell
  · rename_i hid
    rw [if_neg hid]
    exact h j hj hmine

theorem WellRanked.commitCreate (h : WellRanked projectId db) {tx : CreateTx} {row : Issue}
    (hrow : WellFormedRank row.rank) : WellRanked projectId (db.commitCreate tx row) := by
  intro i hi hmine
  rcases List.mem_append.1 hi with hi | hi
  · exact h i hi hmine
  · rw [List.mem_singleton.1 hi]
    exact hrow

theorem WellRanked.lastInColumn (h : WellRanked projectId db) {s : IssueStatus} {last : Issue}
    (hlast : db.lastInColumn projectId s = some last) : WellFormedRank last.rank := by
  have hmem := mem_columnRows.1 (mem_sortBy.1 (List.mem_of_head? hlast))
  exact h last hmem.1 hmem.2.1

end Writes

/-! ### One step -/

namespace IssueCall

variable {organizationId projectId : JsString} {w : World}

/-- A step stores well-formed ranks, and its call goes on with well-formed ranks. -/
structure Stored (projectId : JsString) (r : IssueCall × World) : Prop where
  call : r.1.Keeps projectId
  ranks : WellRanked projectId r.2.db

/-- The first call of a request on the project. -/
theorem Keeps.start (hdb : WellRanked projectId w.db) {request : IssueRequest}
    (hon : ∀ p ∈ request.project organizationId w.db, p = projectId) (belowFirst : Bool) (g : Gen) :
    Stored projectId
      (step organizationId belowFirst g (.outside (.start request)) w) := by
  rw [step_outside belowFirst fun _ _ _ h => by cases h]
  cases request with
  | create actorId projectKey input =>
      rw [IssueTask.step]
      cases hp : w.db.findProject organizationId projectKey with
      | none => exact ⟨trivial, hdb⟩
      | some project =>
          exact ⟨hon project.id (by rw [IssueRequest.project, hp]; rfl), hdb⟩
  | update actorId issueId input =>
      rw [IssueTask.step]
      cases w.db.findIssue organizationId issueId with
      | none => exact ⟨trivial, hdb⟩
      | some issue => exact ⟨trivial, hdb⟩
  | move actorId issueId input =>
      rw [IssueTask.step]
      cases hi : w.db.findIssue organizationId issueId with
      | none => exact ⟨trivial, hdb⟩
      | some issue =>
          exact ⟨⟨hon issue.projectId (by rw [IssueRequest.project, hi]; rfl), readRank_none,
            readRank_none⟩, hdb⟩
  | remove actorId issueId =>
      rw [IssueTask.step]
      cases w.db.findIssue organizationId issueId with
      | none => exact ⟨trivial, hdb⟩
      | some issue => exact ⟨trivial, hdb⟩

/-- The calls of a move: two reads, and the write of a rank between what they answered. -/
theorem Keeps.placing {issue : Issue} {actorId : JsString} {input : MoveIssueInput}
    {above below : Option (Option JsString)}
    (h : (outside (.placing issue actorId input above below)).Keeps projectId)
    (hdb : WellRanked projectId w.db) (belowFirst : Bool) (g : Gen) :
    Stored projectId (step organizationId belowFirst g
      (.outside (.placing issue actorId input above below)) w) := by
  have hread : ∀ {id : Option JsString}, issue.projectId = projectId →
      ReadRank (some (w.db.neighbourRank issue.projectId input.status id)) := by
    rintro id rfl _ ⟨⟩
    exact neighbourRank_wellFormed hdb input.status id
  rw [step_outside belowFirst fun _ _ _ h => by cases h]
  obtain ⟨hmine, habove, hbelow⟩ := h
  cases above with
  | none =>
      cases below with
      | none =>
          rw [IssueTask.step]
          cases belowFirst with
          | true => exact ⟨⟨hmine, readRank_none, hread hmine⟩, hdb⟩
          | false => exact ⟨⟨hmine, hread hmine, readRank_none⟩, hdb⟩
      | some below => exact ⟨⟨hmine, hread hmine, hbelow⟩, hdb⟩
  | some above =>
      cases below with
      | none => exact ⟨⟨hmine, habove, hread hmine⟩, hdb⟩
      | some below =>
          rw [IssueTask.step]
          cases hdrop : dropRank above below with
          | error e => exact ⟨trivial, hdb⟩
          | ok rank =>
              have hrank := (dropRank_inGap hdrop (habove _ rfl) (hbelow _ rfl)).1
              simp only [Except.bind]
              cases hu : w.db.updateIssue issue.id none (place input.status rank g.now) with
              | error e => exact ⟨trivial, hdb⟩
              | ok r =>
                  obtain ⟨row, db⟩ := r
                  obtain ⟨_, _, _, rfl⟩ := Db.updateIssue_ok hu
                  exact ⟨trivial,
                    hdb.rewriteIssue _ (fun _ => rfl) fun _ => .inr hrank⟩

/-- The calls outside the transaction. -/
theorem Keeps.outside {task : IssueTask} (h : (IssueCall.outside task).Keeps projectId)
    (hdb : WellRanked projectId w.db)
    (hon : (IssueCall.outside task).OnProject organizationId projectId w.db) (belowFirst : Bool)
    (g : Gen) :
    Stored projectId (step organizationId belowFirst g (.outside task) w) := by
  cases task with
  | start request => exact Keeps.start hdb hon belowFirst g
  | creating p actorId input =>
      rw [IssueCall.step]
      cases w.db.incrementIssueCounter p g.now with
      | error e => exact ⟨trivial, hdb⟩
      | ok r => exact ⟨h, hdb⟩
  | updating before actorId issueId input =>
      rw [step_outside belowFirst (fun _ _ _ h => by cases h), IssueTask.step]
      cases hu : w.db.updateIssue issueId (connectedUser input) (input.apply g.now) with
      | error e => exact ⟨trivial, hdb⟩
      | ok r =>
          obtain ⟨row, db⟩ := r
          obtain ⟨_, _, _, rfl⟩ := Db.updateIssue_ok hu
          exact ⟨trivial, hdb.rewriteIssue _ (fun _ => rfl) fun _ => .inl rfl⟩
  | placing issue actorId input above below => exact Keeps.placing h hdb belowFirst g
  | removing issue actorId =>
      rw [step_outside belowFirst (fun _ _ _ h => by cases h), IssueTask.step]
      cases hd : w.db.deleteIssue issue.id with
      | error e => exact ⟨trivial, hdb⟩
      | ok r =>
          obtain ⟨u, db⟩ := r
          obtain rfl := Db.deleteIssue_ok hd
          exact ⟨trivial, fun i hi hmine => hdb i (mem_deleteWhere.1 hi).1 hmine⟩
  | auditing a =>
      have hlater : Aftermath a.entry.organizationId w
          (w.recorded a.entry (g.cuid 0) g.now) := .recorded (g.cuid 0) g.now w
      exact ⟨trivial, hdb.of_issues hlater.issues⟩
  | emitting a =>
      rw [step_outside belowFirst (fun _ _ _ h => by cases h), IssueTask.step]
      cases a.job with
      | none => exact ⟨trivial, hdb⟩
      | some job => exact ⟨trivial, hdb⟩
  | notifying job => exact ⟨trivial, hdb.of_issues (congrArg Db.issues (w.enqueued_db job))⟩
  | done answer => exact ⟨trivial, hdb⟩

/-- **A step stores well-formed ranks.** -/
theorem Keeps.step {call : IssueCall} (h : call.Keeps projectId) (hdb : WellRanked projectId w.db)
    (hon : call.OnProject organizationId projectId w.db) (belowFirst : Bool) (g : Gen) :
    Stored projectId (call.step organizationId belowFirst g w) := by
  cases call with
  | outside task => exact Keeps.outside h hdb hon belowFirst g
  | numbered tx =>
      rw [IssueCall.step]
      cases hr : appendRank (w.db.lastInColumn tx.projectId tx.input.status) with
      | error e => exact ⟨trivial, hdb⟩
      | ok rank =>
          have hmine : tx.projectId = projectId := h
          have hrank := (appendRank_last hr fun i hi =>
            hdb i (mem_columnRows.1 hi).1 ((mem_columnRows.1 hi).2.1.trans hmine)).1
          exact ⟨⟨hmine, hrank⟩, hdb⟩
  | ranked tx rank =>
      rw [IssueCall.step]
      cases w.db.createIssue (newIssue organizationId tx.actorId tx.projectId tx.input g tx.number
          rank) tx.input.labelIds with
      | error e => exact ⟨trivial, hdb⟩
      | ok r => exact ⟨h, hdb⟩
  | inserted tx row => exact ⟨trivial, hdb.commitCreate h.2⟩

/-- A call that keeps to the project gets an answer from `rankBetween`. -/
theorem Keeps.rankAnswer {call : IssueCall} {db : Db} (h : call.Keeps projectId)
    (hdb : WellRanked projectId db) {above below : Option JsString}
    (hargs : call.rankArgs db = some (above, below)) : RankAnswer above below := by
  cases call with
  | outside task =>
      cases task with
      | placing issue actorId input above below =>
          cases above with
          | none => cases hargs
          | some above =>
              cases below with
              | none => cases hargs
              | some below =>
                  cases hargs
                  exact rankAnswer_of_wellFormed (h.2.1 _ rfl) (h.2.2 _ rfl)
      | _ => cases hargs
  | numbered tx =>
      have hmine : tx.projectId = projectId := h
      obtain ⟨last, hlast, heq⟩ := Option.map_eq_some_iff.1 hargs
      cases heq
      rw [hmine] at hlast
      refine rankAnswer_of_wellFormed (fun x hx => ?_) fun y hy => by cases hy
      cases hx
      exact hdb.lastInColumn hlast
  | ranked tx rank => cases hargs
  | inserted tx row => cases hargs

end IssueCall

/-! ### Runs -/

section Runs

variable {τ : Type*} [DecidableEq τ] {organizationId projectId : JsString}

/-- The ranks of the project are well formed, in the table and in the calls. -/
structure IssueCalls.WellRanked (projectId : JsString) (s : IssueCalls τ) : Prop where
  ranks : PmSaas.WellRanked projectId s.world.db
  calls : ∀ t, (s.call t).Keeps projectId

theorem IssueCalls.WellRanked.next {s : IssueCalls τ} (h : s.WellRanked projectId)
    {a : τ × CallAct} (hon : s.OnProject organizationId projectId a) :
    (s.next organizationId a).WellRanked projectId := by
  obtain ⟨t, act⟩ := a
  cases act with
  | fail e =>
      obtain ⟨answer, hanswer⟩ := (s.call t).failed_done e
      rw [IssueCalls.next, hanswer]
      refine ⟨h.ranks, (Function.forall_update_iff _ fun _ => IssueCall.Keeps projectId).2 ?_⟩
      exact ⟨trivial, fun t' _ => h.calls t'⟩
  | run belowFirst g =>
      have hstep := (h.calls t).step h.ranks hon belowFirst g
      refine ⟨hstep.ranks, (Function.forall_update_iff _ fun _ => IssueCall.Keeps projectId).2 ?_⟩
      exact ⟨hstep.call, fun t' _ => h.calls t'⟩

/-- **Every rank is well formed.**  A project starts empty, and any number of requests on it take
turns, one database call at a time.  In every state each rank stored in the project is non-empty,
has only characters of `DIGITS` and does not end in `0`, and each call of `rankBetween` that is
about to be made throws because its bounds are inverted or answers a rank strictly between them. -/
theorem rank_stored {s₀ s : IssueCalls τ} {as : List (τ × CallAct)} (h₀ : EmptyStart projectId s₀)
    (hrun : Run (Guarded (Steps IssueCalls.Enabled (IssueCalls.next organizationId))
      (IssueCalls.OnProject organizationId projectId)) s₀ as s) :
    (∀ i ∈ s.world.db.issues, i.projectId = projectId → WellFormedRank i.rank) ∧
    ∀ t above below, (s.call t).rankArgs s.world.db = some (above, below) →
      RankAnswer above below := by
  have h : s.WellRanked projectId := by
    refine hrun.invariant (P := IssueCalls.WellRanked projectId) ?_ ⟨fun i hi hmine => ?_,
      fun t => ?_⟩
    · intro s a s' hs hstep
      obtain ⟨⟨_, rfl⟩, hon⟩ := hstep
      exact hs.next hon
    · exact absurd hmine (h₀.none i hi)
    · obtain ⟨request, hrequest⟩ := h₀.calls t
      rw [hrequest]
      trivial
  exact ⟨h.ranks, fun t above below hargs => (h.calls t).rankAnswer h.ranks hargs⟩

end Runs

/-! ### A drop between two cards that are the wrong way round -/

namespace StoredRanks.Samples

open Demo (firstId secondId)
open IssueCalls.Samples (Client)

/-- Two creates, and a drop of the first card below the second and above itself. -/
def request (t : Client) : IssueRequest :=
  if t = .third then
    .move Demo.userId.val firstId.val ⟨.BACKLOG, some secondId.val, some firstId.val⟩
  else .create Demo.userId.val Demo.project.key { title := js "Task" }

def start : IssueCalls Client where
  world := Demo.world
  call t := .outside (.start (request t))
  created := []

theorem start_ok : EmptyStart Demo.projectId.val start where
  none := by decide
  calls t := ⟨request t, rfl⟩

abbrev turn (t : Client) (id : Cuid) : Client × CallAct := (t, .run false (Demo.gen id))

/-- Both cards are there, and the drop has read the ranks of its neighbours. -/
def moves : List (Client × CallAct) :=
  List.replicate 5 (turn .first firstId) ++ List.replicate 5 (turn .second secondId) ++
    List.replicate 3 (turn .third firstId)

def placed : IssueCalls Client := moves.foldl (IssueCalls.next Demo.orgId.val) start

end StoredRanks.Samples

open StoredRanks.Samples in
theorem rank_stored_placed :
    (∀ i ∈ placed.world.db.issues, i.projectId = Demo.projectId.val → WellFormedRank i.rank) ∧
    ∀ t above below, (placed.call t).rankArgs placed.world.db = some (above, below) →
      RankAnswer above below :=
  rank_stored start_ok
    (Along.guarded (show Along _ (IssueCalls.next Demo.orgId.val) start moves by decide))

open StoredRanks.Samples in
example : (placed.call .third).rankArgs placed.world.db = some (some (js "k"), some (js "V")) := by decide

end PmSaas
