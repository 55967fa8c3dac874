import PmSaas.Db.Schema

/-!
# `realtime.ts`: what an API node broadcasts about issues

`IssueView` is the projection `issueSelect` that the issue endpoints return and that travels in
`issue:created` and `issue:updated`.

The name of a project's room is unique (`projectRoom_eq`), and the gateway's test for the rooms of a
project finds that room only (`isRoomOf_projectRoom`), as long as the ids in it are generated ones.
-/

namespace PmSaas

/-- The columns of `issueSelect`. -/
structure IssueView where
  id : JsString
  number : ℕ
  title : JsString
  description : Option JsString
  status : IssueStatus
  priority : IssuePriority
  rank : JsString
  assigneeId : Option JsString
  reporterId : JsString
  dueDate : Option Date
  projectId : JsString
  createdAt : Date
  updatedAt : Date
  deriving DecidableEq, Repr

def issueSelect (i : Issue) : IssueView where
  id := i.id
  number := i.number
  title := i.title
  description := i.description
  status := i.status
  priority := i.priority
  rank := i.rank
  assigneeId := i.assigneeId
  reporterId := i.reporterId
  dueDate := i.dueDate
  projectId := i.projectId
  createdAt := i.createdAt
  updatedAt := i.updatedAt

/-- The issue events of `ServerToClientEvents`. -/
inductive IssueEvent where
  | created (issue : IssueView)
  | updated (issue : IssueView)
  | moved (id : JsString) (status : IssueStatus) (rank : JsString)
  | deleted (id : JsString)
  deriving DecidableEq, Repr

/-- The issue an event is about. -/
def IssueEvent.issueId : IssueEvent → JsString
  | .created issue => issue.id
  | .updated issue => issue.id
  | .moved id _ _ => id
  | .deleted id => id

def projectRoom (orgId projectId : JsString) : JsString :=
  js "org:" ++ orgId ++ js ":project:" ++ projectId

/-! ### Room names -/

/-- The test of the gateway: ``room.endsWith(`:project:${projectId}`)``. -/
def isRoomOf (projectId room : JsString) : Bool :=
  JsString.endsWith room (js ":project:" ++ projectId)

/-- The colon. -/
def colon : CodeUnit := 58

theorem colon_notMem_of_cuidFormat {id : JsString} (h : cuidFormat id = true) : colon ∉ id :=
  notMem_of_cuidFormat h (by decide) (by decide)

theorem projectRoom_eq_colons (orgId projectId : JsString) :
    projectRoom orgId projectId =
      js "org" ++ colon :: (orgId ++ colon :: (js "project" ++ colon :: projectId)) := by
  have horg : js "org:" = js "org" ++ [colon] := by decide
  have hproject : js ":project:" = colon :: (js "project" ++ [colon]) := by decide
  rw [projectRoom, horg, hproject]
  simp [List.append_assoc]

/-- What stands before the first colon is determined, and so is the rest. -/
theorem eq_of_append_colon {a b x y : JsString} (ha : colon ∉ a) (hb : colon ∉ b)
    (h : a ++ colon :: x = b ++ colon :: y) : a = b ∧ x = y := by
  induction a generalizing b with
  | nil =>
      cases b with
      | nil => exact ⟨rfl, List.tail_eq_of_cons_eq h⟩
      | cons c b => exact absurd (List.head_eq_of_cons_eq h ▸ List.mem_cons_self) hb
  | cons c a ih =>
      cases b with
      | nil => exact absurd (List.head_eq_of_cons_eq h ▸ List.mem_cons_self) ha
      | cons d b =>
          obtain ⟨hab, hxy⟩ := ih (fun hm => ha (List.mem_cons_of_mem _ hm))
            (fun hm => hb (List.mem_cons_of_mem _ hm)) (List.tail_eq_of_cons_eq h)
          exact ⟨by rw [hab, List.head_eq_of_cons_eq h], hxy⟩

/-- A colon of `x ++ colon :: y` that is not in `b` is the one after `b` or a later one. -/
theorem after_colon {b x y z : JsString} (hb : colon ∉ b)
    (h : x ++ colon :: y = b ++ colon :: z) :
    x = b ∧ y = z ∨ ∃ x', x' ++ colon :: y = z := by
  by_cases hx : colon ∈ x
  · obtain ⟨x₁, x₂, rfl, hx₁⟩ := List.eq_append_cons_of_mem hx
    rw [List.append_assoc, List.cons_append] at h
    exact .inr ⟨x₂, (eq_of_append_colon hx₁ hb h).2⟩
  · exact .inl (eq_of_append_colon hx hb h)

theorem projectRoom_eq {orgId orgId' projectId projectId' : JsString}
    (horg : cuidFormat orgId = true) (horg' : cuidFormat orgId' = true)
    (h : projectRoom orgId projectId = projectRoom orgId' projectId') :
    orgId = orgId' ∧ projectId = projectId' := by
  rw [projectRoom_eq_colons, projectRoom_eq_colons] at h
  obtain ⟨hid, hrest⟩ := eq_of_append_colon (colon_notMem_of_cuidFormat horg)
    (colon_notMem_of_cuidFormat horg')
    (List.tail_eq_of_cons_eq (List.append_cancel_left h))
  exact ⟨hid, List.tail_eq_of_cons_eq (List.append_cancel_left hrest)⟩

/-- A generated id does not spell `project`. -/
theorem ne_project_of_cuidFormat {id : JsString} (h : cuidFormat id = true) :
    js "project" ≠ id := by
  rintro rfl
  exact absurd h (by decide)

theorem isRoomOf_self (orgId projectId : JsString) :
    isRoomOf projectId (projectRoom orgId projectId) = true := by
  rw [isRoomOf, JsString.endsWith_iff]
  exact ⟨js "org:" ++ orgId, (List.append_assoc ..).symm⟩

/-- **The rooms of a project are found by its id only.** -/
theorem isRoomOf_projectRoom {orgId projectId : JsString} (horg : cuidFormat orgId = true)
    (hproject : cuidFormat projectId = true) {p : JsString} :
    isRoomOf p (projectRoom orgId projectId) = true ↔ p = projectId := by
  have hnone := colon_notMem_of_cuidFormat hproject
  have hname : colon ∉ js "project" := by decide
  constructor
  · intro h
    obtain ⟨x, hx⟩ := JsString.endsWith_iff.1 h
    have hcolons : x ++ colon :: (js "project" ++ colon :: p) =
        js "org" ++ colon :: (orgId ++ colon :: (js "project" ++ colon :: projectId)) := by
      rw [← projectRoom_eq_colons, ← hx, show js ":project:" = colon :: (js "project" ++ [colon])
        by decide]
      simp [List.append_assoc]
    rcases after_colon (by decide) hcolons with ⟨_, hrest⟩ | ⟨x, hx⟩
    · exact absurd (eq_of_append_colon hname (colon_notMem_of_cuidFormat horg) hrest).1
        (ne_project_of_cuidFormat horg)
    · rcases after_colon (colon_notMem_of_cuidFormat horg) hx with ⟨_, hrest⟩ | ⟨x, hx⟩
      · exact (eq_of_append_colon hname hname hrest).2
      · rcases after_colon hname hx with ⟨_, hrest⟩ | ⟨x, hx⟩
        · exact absurd (hrest ▸ List.mem_append_right _ List.mem_cons_self) hnone
        · exact absurd (hx ▸ List.mem_append_right _ List.mem_cons_self) hnone
  · rintro rfl
    exact isRoomOf_self orgId p

end PmSaas
