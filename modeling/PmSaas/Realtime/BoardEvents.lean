import PmSaas.Issues.IssueTasks
import PmSaas.Issues.IssueReads
import PmSaas.Api.TenantSound
import PmSaas.Web.UseBoardRealtime

/-!
# What the room is told about a write

A write of an issue and the event announced for it make the same change to the project's list of
issues (`Mirrors`).  `TaskEffect` is what one step of a request does to the issues and to the room:
nothing, a write, or the emission of an event.
-/

namespace PmSaas

open Replay SortBy Table

/-- The issues of a project, in no particular order. -/
def Db.boardList (projectId : JsString) (db : Db) : List IssueView :=
  (db.issues.filter (·.projectId == projectId)).map issueSelect

/-- The event makes the change that led from `db` to `db'`. -/
structure Mirrors (db db' : Db) (a : Announcement) : Prop where
  other : ∀ projectId, a.projectId ≠ projectId → db'.boardList projectId = db.boardList projectId
  shown : (db'.boardList a.projectId).map IssueView.shown =
    (patch a.event (db.boardList a.projectId)).map IssueView.shown
  applies : a.event.change.Applies (card (db.boardList a.projectId) a.event.issueId)

/-! ### Cards -/

theorem card_eq_none {l : List IssueView} {id : JsString} (h : ∀ i ∈ l, i.id ≠ id) :
    card l id = none := by
  rw [card, List.find?_eq_none.2 fun i hi => by simpa using h i hi, Option.map_none]

theorem card_ne_none {l : List IssueView} {i : IssueView} (hi : i ∈ l) : card l i.id ≠ none := by
  intro hnone
  rw [card, Option.map_eq_none_iff, List.find?_eq_none] at hnone
  exact hnone i hi (beq_self_eq_true i.id)

/-- The cards are those of the issues shown. -/
theorem card_congr {l m : List IssueView} (h : l.map IssueView.shown = m.map IssueView.shown)
    (id : JsString) : card l id = card m id := by
  have hcard : ∀ n : List IssueView,
      card n id = (n.map IssueView.shown).find? (·.id == id) := by
    intro n
    rw [List.find?_map]
    rfl
  rw [hcard, hcard, h]

/-- The order of the list does not matter. -/
theorem card_perm {l m : List IssueView} (hl : UniqueKey IssueView.id l) (h : l.Perm m)
    (id : JsString) : card l id = card m id := by
  have hm : UniqueKey IssueView.id m := (h.map IssueView.id).nodup_iff.1 hl
  rw [card, card]
  congr 1
  ext i
  rw [hl.find?_iff, hm.find?_iff, h.mem_iff]

section Lists

variable {db : Db} {projectId : JsString}

theorem mem_boardList {i : Issue} (hi : i ∈ db.issues) :
    issueSelect i ∈ db.boardList i.projectId :=
  List.mem_map_of_mem (List.mem_filter.2 ⟨hi, beq_self_eq_true _⟩)

theorem boardList_uniqueKey (h : UniqueKey Issue.id db.issues) :
    UniqueKey IssueView.id (db.boardList projectId) := by
  rw [UniqueKey, Db.boardList, List.map_map]
  exact h.sublist (List.filter_sublist.map Issue.id)

/-- Rewriting rows of the table, as patched in the list and seen through `v`. -/
theorem view_updateWhere {β : Type*} (v : IssueView → β) {f : Issue → Issue}
    {f' : IssueView → IssueView} {id : JsString} {rows : List Issue}
    (h : ∀ i ∈ rows, i.id = id → v (issueSelect (f i)) = v (f' (issueSelect i))) :
    ((updateWhere (·.id == id) f rows).map issueSelect).map v =
      (updateWhere (·.id == id) f' (rows.map issueSelect)).map v := by
  simp only [updateWhere, List.map_map]
  refine List.map_congr_left fun i hi => ?_
  by_cases hid : i.id = id
  · have hview : ((issueSelect i).id == id) = true := beq_iff_eq.2 hid
    simp only [Function.comp_apply, if_pos (beq_iff_eq.2 hid), if_pos hview]
    exact h i hi hid
  · have hrow : ¬(i.id == id) = true := fun h => hid (beq_iff_eq.1 h)
    have hview : ¬((issueSelect i).id == id) = true := fun h => hid (beq_iff_eq.1 h)
    simp only [Function.comp_apply, if_neg hrow, if_neg hview]

theorem boardList_rewriteIssue {β : Type*} (v : IssueView → β) (hids : UniqueKey Issue.id db.issues)
    {i : Issue} (hi : i ∈ db.issues) {f : Issue → Issue}
    (hf : ∀ j, (f j).projectId = j.projectId) (f' : IssueView → IssueView)
    (hv : v (issueSelect (f i)) = v (f' (issueSelect i))) :
    ((db.rewriteIssue i.id f).boardList projectId).map v =
      (updateWhere (·.id == i.id) f' (db.boardList projectId)).map v := by
  have hfilter : (updateWhere (·.id == i.id) f db.issues).filter (·.projectId == projectId) =
      updateWhere (·.id == i.id) f (db.issues.filter (·.projectId == projectId)) :=
    filter_updateWhere_comm fun j _ _ => by rw [hf j]
  rw [Db.boardList, Db.rewriteIssue, hfilter]
  refine view_updateWhere v fun j hj hji => ?_
  rw [hids.eq_of_key_eq (List.mem_of_mem_filter hj) hi hji]
  exact hv

theorem boardList_insertIssue {row : Issue} (labelIds : List JsString)
    (hfresh : ∀ i ∈ db.issues, i.id ≠ row.id) :
    (db.insertIssue row labelIds).boardList row.projectId =
      patch (.created (issueSelect row)) (db.boardList row.projectId) := by
  have hany : ¬(db.boardList row.projectId).any (·.id == (issueSelect row).id) = true := by
    intro hany
    obtain ⟨i, hi, hid⟩ := List.any_eq_true.1 hany
    obtain ⟨j, hj, rfl⟩ := List.mem_map.1 hi
    exact hfresh j (List.mem_of_mem_filter hj) (beq_iff_eq.1 hid)
  rw [patch, if_neg hany, Db.boardList, Db.insertIssue, List.filter_append]
  simp [Db.boardList]

theorem boardList_dropIssue (id : JsString) :
    (db.dropIssue id).boardList projectId = patch (.deleted id) (db.boardList projectId) := by
  rw [patch, Db.boardList, Db.boardList, List.filter_map, Db.dropIssue, deleteWhere]
  congr 1
  rw [List.filter_filter, List.filter_filter]
  exact List.filter_congr fun j _ => Bool.and_comm ..

/-- The list of a project with at most 100 issues has every one of them. -/
theorem TenantSound.list_perm {ilike : JsString → JsString → Bool}
    {organizationId projectKey : JsString} {w : World} (h : TenantSound w.db) {p : Project}
    (hp : w.db.findProject organizationId projectKey = some p)
    (hfull : (w.db.boardList p.id).length ≤ 100) {rows : List IssueView}
    (hlist : (IssuesService.list ilike organizationId projectKey { limit := 100 } w).1 = .ok rows) :
    rows.Perm (w.db.boardList p.id) := by
  obtain ⟨hmem, horg, _⟩ := Db.findProject_some hp
  have hselect : (w.db.issues.filter fun i => i.organizationId == organizationId &&
      i.projectId == p.id && IssueFilter.selects ilike { limit := 100 } i) =
        w.db.issues.filter (·.projectId == p.id) := by
    refine List.filter_congr fun i hi => ?_
    obtain ⟨q, hq, hqid, hqorg⟩ := h.issueProjects i hi
    by_cases hi' : i.projectId = p.id
    · have hqp : q = p := h.projectIds.eq_of_key_eq hq hmem (hqid.trans hi')
      have hiorg : i.organizationId = organizationId := by rw [← hqorg, hqp, horg]
      simp [IssueFilter.selects, truthy, hi', hiorg]
    · have hother : (i.projectId == p.id) = false := by simpa using hi'
      rw [hother, Bool.and_false, Bool.false_and]
  have hlen : (sortBy Issue.boardKey (w.db.issues.filter (·.projectId == p.id))).length ≤ 100 := by
    rw [(sortBy_perm _).length_eq]
    simpa [Db.boardList] using hfull
  rw [IssuesService.list_apply, hp] at hlist
  cases hlist
  refine List.Perm.map issueSelect ?_
  rw [Db.issuePage, hselect]
  show (List.take 100 _).Perm _
  rw [List.take_of_length_le hlen]
  exact sortBy_perm _

end Lists

/-! ### The four writes -/

namespace Mirrors

variable {db db' : Db}

theorem insertIssue {row : Issue} (labelIds : List JsString)
    (hfresh : ∀ i ∈ db.issues, i.id ≠ row.id) {a : Announcement} (hp : a.projectId = row.projectId)
    (he : a.event = .created (issueSelect row)) : Mirrors db (db.insertIssue row labelIds) a := by
  refine ⟨fun projectId hne => ?_, ?_, ?_⟩
  · have hout : (row.projectId == projectId) = false := by simpa [hp] using hne
    exact congrArg (List.map issueSelect) (filter_insert hout)
  · rw [he, hp, boardList_insertIssue labelIds hfresh]
  · rw [he]
    refine card_eq_none fun i hi => ?_
    obtain ⟨j, hj, rfl⟩ := List.mem_map.1 hi
    exact hfresh j (List.mem_of_mem_filter hj)

/-- A rewrite of an issue's row, announced by an event that rewrites its view. -/
theorem rewriteIssue (hids : UniqueKey Issue.id db.issues) {i : Issue} (hi : i ∈ db.issues)
    {f : Issue → Issue} (hf : ∀ j, (f j).projectId = j.projectId) (f' : IssueView → IssueView)
    (hshown : (issueSelect (f i)).shown = (f' (issueSelect i)).shown) {a : Announcement}
    (hp : a.projectId = i.projectId) (hid : a.event.issueId = i.id)
    (he : ∀ l, patch a.event l = updateWhere (·.id == i.id) f' l)
    (happlies : ∀ c : Option IssueView, c ≠ none → a.event.change.Applies c) :
    Mirrors db (db.rewriteIssue i.id f) a := by
  refine ⟨fun projectId hne => ?_, ?_, ?_⟩
  · refine congrArg (List.map issueSelect) (filter_updateWhere fun j hj hji => ?_)
    rw [hids.eq_of_key_eq hj hi (beq_iff_eq.1 hji), hf i, ← hp]
    exact ⟨by simpa using hne, by simpa using hne⟩
  · rw [he]
    exact boardList_rewriteIssue IssueView.shown hids hi hf f' hshown
  · rw [hid, hp]
    exact happlies _ (card_ne_none (mem_boardList hi))

theorem dropIssue {i : Issue} (hi : i ∈ db.issues) (hids : UniqueKey Issue.id db.issues)
    {a : Announcement} (hp : a.projectId = i.projectId) (he : a.event = .deleted i.id) :
    Mirrors db (db.dropIssue i.id) a := by
  refine ⟨fun projectId hne => ?_, ?_, ?_⟩
  · refine congrArg (List.map issueSelect) (filter_deleteWhere fun j hj hji => ?_)
    rw [hids.eq_of_key_eq hj hi (beq_iff_eq.1 hji), ← hp]
    simpa using hne
  · rw [he, boardList_dropIssue]
  · rw [he, hp]
    exact card_ne_none (mem_boardList hi)

/-! ### What the requests announce -/

open IssuesService

variable {organizationId actorId : JsString} {g : Gen}

theorem created {projectId : JsString} {input : CreateIssueInput} {issue : IssueView}
    (h : db.createIssueTx organizationId actorId projectId input g = .ok (issue, db')) :
    Mirrors db db' (createdAnnouncement organizationId actorId projectId issue) := by
  obtain ⟨project, rank, _, _, hins⟩ := Db.createIssueTx_ok h
  obtain ⟨rfl, rfl, hfresh, _⟩ := Db.createIssue_ok hins
  have hmirrors : Mirrors (db.bumpProject projectId g.now) _
      (createdAnnouncement organizationId actorId projectId _) :=
    insertIssue input.labelIds hfresh rfl rfl
  exact ⟨hmirrors.other, hmirrors.shown, hmirrors.applies⟩

theorem updated (hids : UniqueKey Issue.id db.issues) {issueId : JsString}
    {input : UpdateIssueInput} {before row : Issue}
    (h : db.updateIssue issueId (connectedUser input) (input.apply g.now) = .ok (row, db')) :
    Mirrors db db' (updatedAnnouncement organizationId actorId input before (issueSelect row)) := by
  obtain ⟨i, hfind, rfl, rfl⟩ := Db.updateIssue_ok h
  obtain ⟨hi, rfl⟩ := hids.find?_iff.1 hfind
  refine rewriteIssue hids hi (fun _ => ?_) (fun _ => issueSelect (input.apply g.now i))
    ?_ ?_ ?_ (fun _ => ?_) fun _ hc => ?_
  exacts [rfl, rfl, rfl, rfl, rfl, hc]

theorem moved (hids : UniqueKey Issue.id db.issues) {issue row : Issue} {input : MoveIssueInput}
    {rank : JsString}
    (h : db.updateIssue issue.id none (place input.status rank g.now) = .ok (row, db')) :
    Mirrors db db' (movedAnnouncement organizationId actorId input issue row) := by
  obtain ⟨i, hfind, rfl, rfl⟩ := Db.updateIssue_ok h
  obtain ⟨hi, hid⟩ := hids.find?_iff.1 hfind
  rw [← hid]
  refine rewriteIssue hids hi (fun _ => ?_) (setPlace (input.status, rank))
    ?_ ?_ ?_ (fun _ => ?_) fun _ hc => ?_
  exacts [rfl, rfl, rfl, rfl, rfl, hc]

theorem removed (hids : UniqueKey Issue.id db.issues) {issue : Issue}
    (hlocated : ∀ i ∈ db.issues, i.id = issue.id → i.projectId = issue.projectId)
    (h : db.deleteIssue issue.id = .ok ((), db')) :
    Mirrors db db' (removedAnnouncement organizationId actorId issue) := by
  obtain ⟨i, hi, hid⟩ := Db.exists_of_deleteIssue h
  obtain rfl := Db.deleteIssue_ok h
  have hproject := hlocated i hi hid
  rw [← hid]
  exact dropIssue hi hids hproject.symm (congrArg IssueEvent.deleted hid.symm)

end Mirrors

/-! ### One step of a request -/

/-- What a step can do to the issues and to the rooms, by what the request has to announce before
and after. -/
inductive TaskEffect (organizationId : JsString) (w w' : World) :
    Option Announcement → Option Announcement → Prop
  | idle (a : Option Announcement) (issues : w'.db.issues = w.db.issues)
      (broadcasts : w'.broadcasts = w.broadcasts) : TaskEffect organizationId w w' a a
  | write {a : Announcement} (mirrors : Mirrors w.db w'.db a)
      (broadcasts : w'.broadcasts = w.broadcasts) : TaskEffect organizationId w w' none (some a)
  | emit (a : Announcement) (world : w' = w.emitted organizationId a.projectId a.event) :
      TaskEffect organizationId w w' (some a) none

/-- What a request has read and relies on when it writes. -/
structure IssueTask.Grounded (organizationId : JsString) (db : Db) (task : IssueTask) : Prop where
  resolved : ∀ projectId actorId input, task = .creating projectId actorId input →
    ∃ p ∈ db.projects, p.id = projectId ∧ p.organizationId = organizationId
  located : ∀ issue actorId, task = .removing issue actorId →
    ∀ i ∈ db.issues, i.id = issue.id → i.projectId = issue.projectId

theorem IssueTask.Grounded.start (organizationId : JsString) (db : Db) (request : IssueRequest) :
    (IssueTask.start request).Grounded organizationId db := by
  constructor
  all_goals
    intros
    contradiction

namespace IssueTask.Step

variable {organizationId : JsString} {g : Gen} {w w' : World} {task task' : IssueTask}

theorem effect (h : Step organizationId g w task task' w') (hids : UniqueKey Issue.id w.db.issues)
    (hgrounded : task.Grounded organizationId w.db) :
    TaskEffect organizationId w w' task.announcement task'.announcement := by
  cases h with
  | quiet before after resolved found =>
      rw [before, after]
      exact .idle none rfl rfl
  | create committed => exact .write (.created committed) rfl
  | update committed => exact .write (.updated hids committed) rfl
  | move committed => exact .write (.moved hids committed) rfl
  | @remove issue actorId db committed =>
      exact .write (.removed hids (hgrounded.located issue actorId rfl) committed) rfl
  | audit a =>
      exact .idle (some a) (Aftermath.recorded (g.cuid 0) g.now w).issues
        (w.recorded_broadcasts ..)
  | emit a after _ _ =>
      rw [after]
      exact .emit a rfl
  | notify job =>
      exact .idle none (congrArg Db.issues (w.enqueued_db job)) (w.enqueued_broadcasts job)

/-- Only emitting finishes an announcement. -/
theorem emitting (h : Step organizationId g w task task' w') {a : Announcement}
    (hbefore : task.announcement = some a) (hafter : task'.announcement = none) :
    task = .emitting a := by
  cases h with
  | quiet before after resolved found => exact absurd (before.symm.trans hbefore) nofun
  | audit a' => exact absurd hafter nofun
  | emit a' after _ _ => rw [Option.some.inj hbefore]
  | _ => exact absurd hbefore nofun

end IssueTask.Step

/-! ### What a step keeps -/

/-- `db'` is sound, keeps the projects, and has no issue in another project than before, but perhaps
one with the generated id. -/
structure Preserves (g : Gen) (db db' : Db) : Prop where
  sound : TenantSound db'
  keys : ∀ organizationId projectKey, (db'.findProject organizationId projectKey).map Project.id =
    (db.findProject organizationId projectKey).map Project.id
  projects : ∀ p ∈ db.projects, ∃ p' ∈ db'.projects,
    p'.id = p.id ∧ p'.organizationId = p.organizationId
  issues : ∀ i ∈ db'.issues, i.id = (g.cuid 0).val ∨
    ∃ j ∈ db.issues, i.id = j.id ∧ i.projectId = j.projectId

namespace Preserves

variable {g : Gen} {db db' : Db}

theorem of_projects (hsound : TenantSound db') (hprojects : db'.projects = db.projects)
    (hissues : ∀ i ∈ db'.issues, ∃ j ∈ db.issues, i.id = j.id ∧ i.projectId = j.projectId) :
    Preserves g db db' where
  sound := hsound
  keys _ _ := by rw [Db.findProject, Db.findProject, hprojects]
  projects p hp := ⟨p, by rw [hprojects]; exact hp, rfl, rfl⟩
  issues i hi := .inr (hissues i hi)

theorem refl (h : TenantSound db) : Preserves g db db :=
  of_projects h rfl fun i hi => ⟨i, hi, rfl, rfl⟩

theorem createIssueTx (h : TenantSound db) {organizationId actorId projectId : JsString}
    {input : CreateIssueInput} {issue : IssueView}
    (hresolved : ∃ p ∈ db.projects, p.id = projectId ∧ p.organizationId = organizationId)
    (htx : db.createIssueTx organizationId actorId projectId input g = .ok (issue, db')) :
    Preserves g db db' := by
  obtain ⟨project, hproject, rfl, horg⟩ := hresolved
  have hsound := h.createIssueTx hproject horg htx
  obtain ⟨_, rank, _, _, hins⟩ := Db.createIssueTx_ok htx
  obtain ⟨_, rfl, _⟩ := Db.createIssue_ok hins
  refine ⟨hsound, fun organizationId projectKey => ?_, fun p hp => ?_, fun i hi => ?_⟩
  · have hfind : (updateWhere (·.id == project.id) (Project.bump g.now) db.projects).find?
          (fun p => p.organizationId == organizationId && p.key == projectKey) =
        (db.findProject organizationId projectKey).map fun p =>
          if p.id == project.id then p.bump g.now else p :=
      find?_updateWhere fun _ _ _ => rfl
    refine (congrArg (Option.map Project.id) hfind).trans ?_
    rw [Option.map_map]
    congr 1
    funext p
    rw [Function.comp_apply]
    split <;> rfl
  · refine ⟨_, mem_updateWhere.2 ⟨p, hp, rfl⟩, ?_⟩
    split <;> exact ⟨rfl, rfl⟩
  · rcases List.mem_append.1 hi with hi | hi
    · exact .inr ⟨i, hi, rfl, rfl⟩
    · rw [List.mem_singleton.1 hi]
      exact .inl rfl

theorem rewriteIssue (h : TenantSound db) (issueId : JsString) {f : Issue → Issue}
    (hf : ∀ i, (f i).id = i.id ∧ (f i).organizationId = i.organizationId ∧
      (f i).projectId = i.projectId) : Preserves g db (db.rewriteIssue issueId f) := by
  refine of_projects (h.rewriteIssue issueId hf) rfl fun i hi => ?_
  obtain ⟨j, hj, rfl⟩ := mem_updateWhere.1 hi
  refine ⟨j, hj, ?_⟩
  split
  · exact ⟨(hf j).1, (hf j).2.2⟩
  · exact ⟨rfl, rfl⟩

theorem dropIssue (h : TenantSound db) (issueId : JsString) :
    Preserves g db (db.dropIssue issueId) :=
  of_projects (h.dropIssue issueId) rfl fun i hi => ⟨i, (mem_deleteWhere.1 hi).1, rfl, rfl⟩

/-- Other requests go on relying on what they have read. -/
theorem grounded (h : Preserves g db db') {organizationId : JsString} {task : IssueTask}
    (ht : task.Grounded organizationId db)
    (hfresh : ∀ issue actorId, task = .removing issue actorId → issue.id ≠ (g.cuid 0).val) :
    task.Grounded organizationId db' := by
  refine ⟨fun projectId actorId input heq => ?_, fun issue actorId heq i hi hid => ?_⟩
  · obtain ⟨p, hp, hpid, horg⟩ := ht.resolved projectId actorId input heq
    obtain ⟨p', hp', hpid', horg'⟩ := h.projects p hp
    exact ⟨p', hp', hpid'.trans hpid, horg'.trans horg⟩
  · rcases h.issues i hi with hnew | ⟨j, hj, hij, hproject⟩
    · exact absurd (hid.symm.trans hnew) (hfresh issue actorId heq)
    · exact hproject.trans (ht.located issue actorId heq j hj (hij.symm.trans hid))

end Preserves

namespace IssueTask.Step

variable {organizationId : JsString} {g : Gen} {w w' : World} {task task' : IssueTask}

theorem preserves (h : Step organizationId g w task task' w') (hsound : TenantSound w.db)
    (hgrounded : task.Grounded organizationId w.db) : Preserves g w.db w'.db := by
  cases h with
  | quiet before after resolved found => exact .refl hsound
  | @create projectId actorId input issue db committed =>
      exact .createIssueTx hsound (hgrounded.resolved projectId actorId input rfl) committed
  | update committed =>
      obtain ⟨i, _, _, rfl⟩ := Db.updateIssue_ok committed
      exact .rewriteIssue hsound _ fun _ => ⟨rfl, rfl, rfl⟩
  | move committed =>
      obtain ⟨i, _, _, rfl⟩ := Db.updateIssue_ok committed
      exact .rewriteIssue hsound _ fun _ => ⟨rfl, rfl, rfl⟩
  | remove committed =>
      obtain rfl := Db.deleteIssue_ok committed
      exact .dropIssue hsound _
  | audit a =>
      have hafter : Aftermath a.entry.organizationId w (w.recorded a.entry (g.cuid 0) g.now) :=
        .recorded (g.cuid 0) g.now w
      refine .of_projects (hsound.after hafter) hafter.projects fun i hi => ?_
      rw [hafter.issues] at hi
      exact ⟨i, hi, rfl, rfl⟩
  | emit a _ _ _ => exact .refl hsound
  | notify job =>
      rw [w.enqueued_db job]
      exact .refl hsound

/-- A request that goes on relies on what it has just read. -/
theorem grounded (h : Step organizationId g w task task' w') (hsound : TenantSound w.db) :
    task'.Grounded organizationId w'.db := by
  cases h with
  | quiet before after resolved found =>
      refine ⟨resolved, fun issue actorId heq i hi hid => ?_⟩
      rw [hsound.issueIds.eq_of_key_eq hi (found issue actorId heq) hid]
  | emit a _ idle idle' =>
      exact ⟨fun projectId actorId input heq => absurd heq (idle projectId actorId input),
        fun issue actorId heq => absurd heq (idle' issue actorId)⟩
  | _ =>
      constructor
      all_goals
        intros
        contradiction

end IssueTask.Step

/-! ### A request served at once -/

namespace IssueTask.Commit

variable {organizationId : JsString} {g : Gen} {db db' : Db} {request : IssueRequest}
  {a : Announcement}

theorem mirrors (h : Commit organizationId g db request a db') (hsound : TenantSound db) :
    Mirrors db db' a := by
  cases h with
  | create found committed => exact .created committed
  | update found committed => exact .updated hsound.issueIds committed
  | move found committed => exact .moved hsound.issueIds committed
  | remove found committed =>
      refine .removed hsound.issueIds (fun i hi hid => ?_) committed
      rw [hsound.issueIds.eq_of_key_eq hi (Db.findIssue_some found).1 hid]

theorem preserves (h : Commit organizationId g db request a db') (hsound : TenantSound db) :
    Preserves g db db' := by
  cases h with
  | @create _ _ _ project _ _ found committed =>
      obtain ⟨hmem, horg, _⟩ := Db.findProject_some found
      exact .createIssueTx hsound ⟨project, hmem, rfl, horg⟩ committed
  | update found committed =>
      obtain ⟨i, _, _, rfl⟩ := Db.updateIssue_ok committed
      exact .rewriteIssue hsound _ fun _ => ⟨rfl, rfl, rfl⟩
  | move found committed =>
      obtain ⟨i, _, _, rfl⟩ := Db.updateIssue_ok committed
      exact .rewriteIssue hsound _ fun _ => ⟨rfl, rfl, rfl⟩
  | remove found committed =>
      obtain rfl := Db.deleteIssue_ok committed
      exact .dropIssue hsound _

/-- The row an update finds by its id is the one that was looked up in the tenant. -/
theorem found_eq (hsound : TenantSound db) {issueId : JsString} {issue i : Issue}
    (hf : db.findIssue organizationId issueId = some issue)
    (hi : db.issues.find? (·.id == issueId) = some i) : i = issue := by
  obtain ⟨hmem, hid, _⟩ := Db.findIssue_some hf
  obtain ⟨hi', hid'⟩ := hsound.issueIds.find?_iff.1 hi
  exact hsound.issueIds.eq_of_key_eq hi' hmem (hid'.trans hid.symm)

theorem project (h : Commit organizationId g db request a db') (hsound : TenantSound db) :
    request.project organizationId db = some a.projectId := by
  cases h with
  | create found committed => exact congrArg (Option.map Project.id) found
  | update found committed =>
      obtain ⟨i, hi, rfl, _⟩ := Db.updateIssue_ok committed
      rw [found_eq hsound found hi]
      exact congrArg (Option.map Issue.projectId) found
  | @move _ issueId _ _ issue _ _ found committed =>
      obtain ⟨i, hi, rfl, _⟩ := Db.updateIssue_ok committed
      rw [(Db.findIssue_some found).2.1] at hi
      rw [found_eq hsound found hi]
      exact congrArg (Option.map Issue.projectId) found
  | remove found committed => exact congrArg (Option.map Issue.projectId) found

/-- What is announced makes the very change of the list, but for the `updatedAt` of a moved
issue. -/
theorem exact_of_not_moved (h : Commit organizationId g db request a db') (hsound : TenantSound db)
    (hmoved : ∀ id status rank, a.event ≠ .moved id status rank) :
    db'.boardList a.projectId = patch a.event (db.boardList a.projectId) := by
  cases h with
  | create found committed =>
      obtain ⟨project, rank, _, _, hins⟩ := Db.createIssueTx_ok committed
      obtain ⟨rfl, rfl, hfresh, _⟩ := Db.createIssue_ok hins
      exact boardList_insertIssue _ hfresh
  | @update _ _ input _ _ _ found committed =>
      obtain ⟨i, hfind, rfl, rfl⟩ := Db.updateIssue_ok committed
      obtain ⟨hi, rfl⟩ := hsound.issueIds.find?_iff.1 hfind
      have hlist : ((db.rewriteIssue i.id (input.apply g.now)).boardList i.projectId).map id =
          (updateWhere (·.id == i.id) (fun _ => issueSelect (input.apply g.now i))
            (db.boardList i.projectId)).map id :=
        boardList_rewriteIssue id hsound.issueIds hi (f := input.apply g.now) (fun _ => rfl) _ rfl
      rw [List.map_id, List.map_id] at hlist
      exact hlist
  | move found committed => exact absurd rfl (hmoved _ _ _)
  | remove found committed =>
      obtain rfl := Db.deleteIssue_ok committed
      exact boardList_dropIssue _

open IssuesService in
/-- The other issues stay. -/
theorem row_of_ne (h : Commit organizationId g db request a db') (hsound : TenantSound db)
    (v : IssueView → IssueView) {id : JsString} (hid : a.event.issueId ≠ id) :
    rowOf v (db'.boardList a.projectId) id = rowOf v (db.boardList a.projectId) id := by
  by_cases hmoved : ∀ id status rank, a.event ≠ .moved id status rank
  · rw [h.exact_of_not_moved hsound hmoved, patch_rowOf_of_ne hid]
  · cases h with
    | @move _ _ rank input issue row _ found committed =>
        obtain ⟨i, hfind, rfl, rfl⟩ := Db.updateIssue_ok committed
        obtain ⟨hi, hsame⟩ := hsound.issueIds.find?_iff.1 hfind
        have hlist : ((db.rewriteIssue i.id (place input.status rank g.now)).boardList
            i.projectId).map (fun j => j) =
            (updateWhere (·.id == i.id) (fun _ => issueSelect (place input.status rank g.now i))
              (db.boardList i.projectId)).map (fun j => j) :=
          boardList_rewriteIssue _ hsound.issueIds hi (f := place input.status rank g.now)
            (fun _ => rfl) _ rfl
        rw [List.map_id', List.map_id'] at hlist
        show rowOf v ((db.rewriteIssue issue.id (place input.status rank g.now)).boardList
          i.projectId) id = _
        rw [← hsame, hlist]
        exact rowOf_updateWhere_of_ne (fun _ _ _ => rfl) hid
    | _ => exact absurd nofun hmoved

end IssueTask.Commit

/-! ### What the room is told of an issue -/

/-- A view of issues, and the changes that the events make as they were made to the row. -/
structure IssueLens where
  view : IssueView → IssueView
  told : Change IssueView Place → Prop
  id : ∀ i, (view i).id = i.id
  place : ∀ p i, view (setPlace p i) = setPlace p (view i)
  exact : ∀ {organizationId g db request a db'},
    IssueTask.Commit organizationId g db request a db' → TenantSound db →
      told (a.event.changeOf view) → (db'.boardList a.projectId).map view =
        (patch a.event (db.boardList a.projectId)).map view

/-- The issue without its `updatedAt`, which the room is told everything of. -/
def IssueLens.shown : IssueLens where
  view := IssueView.shown
  told _ := True
  id _ := rfl
  place _ _ := rfl
  exact h hsound _ := (h.mirrors hsound).shown

/-- The whole issue, which an `issue:moved` does not say everything of. -/
def IssueLens.whole : IssueLens where
  view i := i
  told e := ∀ p, e ≠ .modify p
  id _ := rfl
  place _ _ := rfl
  exact h hsound htold := by
    refine congrArg _ (h.exact_of_not_moved hsound fun id status rank heq => ?_)
    rw [heq] at htold
    exact htold (status, rank) rfl

namespace IssueLens

variable (lens : IssueLens)

/-- An issue of a list, as the lens shows it. -/
def row (l : List IssueView) (id : JsString) : Option IssueView := rowOf lens.view l id

/-- What the events say of one issue. -/
def changes (id : JsString) (events : List IssueEvent) : List (Change IssueView Place) :=
  events.filterMap fun e => if e.issueId = id then some (e.changeOf lens.view) else none

variable {lens} {id : JsString}

theorem changes_append (events events' : List IssueEvent) :
    lens.changes id (events ++ events') = lens.changes id events ++ lens.changes id events' :=
  List.filterMap_append

theorem changes_self {e : IssueEvent} (h : e.issueId = id) :
    lens.changes id [e] = [e.changeOf lens.view] := by
  rw [changes, List.filterMap_cons, if_pos h]
  rfl

theorem changes_of_ne {e : IssueEvent} (h : e.issueId ≠ id) : lens.changes id [e] = [] := by
  rw [changes, List.filterMap_cons, if_neg h]
  rfl

theorem row_congr {l m : List IssueView} (h : l.map lens.view = m.map lens.view) :
    lens.row l id = lens.row m id := by
  have hrow : ∀ n : List IssueView, lens.row n id = (n.map lens.view).find? (·.id == id) := by
    intro n
    rw [List.find?_map, row, rowOf]
    congr 1
    refine congrArg (fun p => List.find? p n) (funext fun i => ?_)
    rw [Function.comp_apply, lens.id]
  rw [hrow, hrow, h]

theorem row_perm {l m : List IssueView} (hl : UniqueKey IssueView.id l) (h : l.Perm m) :
    lens.row l id = lens.row m id := by
  have hm : UniqueKey IssueView.id m := (h.map IssueView.id).nodup_iff.1 hl
  rw [row, rowOf, row, rowOf]
  congr 1
  ext i
  rw [hl.find?_iff, hm.find?_iff, h.mem_iff]

/-- A patch changes the row as the event says. -/
theorem row_patch (e : IssueEvent) (l : List IssueView) :
    lens.row (patch e l) id = replay setPlace (lens.row l id) (lens.changes id [e]) := by
  by_cases hid : e.issueId = id
  · subst hid
    rw [changes_self rfl, row, patch_rowOf_self lens.place]
    rfl
  · rw [changes_of_ne hid, row, patch_rowOf_of_ne hid]
    rfl

/-- What a committed request does to a row, if the lens is told. -/
theorem row_commit {organizationId : JsString} {g : Gen} {db db' : Db} {request : IssueRequest}
    {a : Announcement} (h : IssueTask.Commit organizationId g db request a db')
    (hsound : TenantSound db) (htold : lens.told (a.event.changeOf lens.view)) :
    (a.event.changeOf lens.view).Applies (lens.row (db.boardList a.projectId) a.event.issueId) ∧
      lens.row (db'.boardList a.projectId) a.event.issueId =
        (a.event.changeOf lens.view).apply setPlace
          (lens.row (db.boardList a.projectId) a.event.issueId) := by
  refine ⟨?_, ?_⟩
  · have happlies := (h.mirrors hsound).applies
    have hnone : ∀ v : IssueView → IssueView,
        rowOf v (db.boardList a.projectId) a.event.issueId = none ↔
          (db.boardList a.projectId).find? (·.id == a.event.issueId) = none :=
      fun v => Option.map_eq_none_iff
    have hiff : lens.row (db.boardList a.projectId) a.event.issueId = none ↔
        card (db.boardList a.projectId) a.event.issueId = none :=
      (hnone lens.view).trans (hnone IssueView.shown).symm
    cases he : a.event with
    | created issue =>
        rw [he] at happlies hiff
        exact hiff.2 happlies
    | _ =>
        rw [he] at happlies hiff
        exact fun habsent => happlies (hiff.1 habsent)
  · rw [row_congr (lens.exact h hsound htold), row, patch_rowOf_self lens.place]
    rfl

/-- What a committed request of the project does to each row. -/
theorem commit_cases (lens : IssueLens) {organizationId : JsString} {g : Gen} {db db' : Db}
    {request : IssueRequest} {a : Announcement}
    (h : IssueTask.Commit organizationId g db request a db') (hsound : TenantSound db)
    (id : JsString) :
    (lens.changes id [a.event] = [] ∧
        lens.row (db'.boardList a.projectId) id = lens.row (db.boardList a.projectId) id) ∨
      ∃ c, lens.changes id [a.event] = [c] ∧
        (lens.told c → c.Applies (lens.row (db.boardList a.projectId) id) ∧
          lens.row (db'.boardList a.projectId) id =
            c.apply setPlace (lens.row (db.boardList a.projectId) id)) := by
  by_cases hid : a.event.issueId = id
  · subst hid
    exact .inr ⟨_, changes_self rfl, row_commit h hsound⟩
  · exact .inl ⟨changes_of_ne hid, h.row_of_ne hsound lens.view hid⟩

end IssueLens

end PmSaas
