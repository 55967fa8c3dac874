import PmSaas.Issues.StoredRanks

/-!
# The neighbours that a drop names

`move` looks each neighbour up in the issue's project and the target column.  A lookup that finds
nothing is merged with the `null` of a column edge, so a neighbour that was deleted, or is in
another column by now, is ignored without a word.

`move_heeds_iff`: a drop, made in its four database calls with other requests in between, throws or
heeds every neighbour it names exactly when each of them is found, or the issue is not.
-/

namespace PmSaas

open SortBy Table TransitionSystem IssuesService

/-- The worlds that requests on the project lead to, one database call at a time. -/
def ReachableWorld (organizationId projectId : JsString) (w : World) : Prop :=
  ∃ (τ : Type) (_ : DecidableEq τ) (s₀ s : IssueCalls τ) (as : List (τ × CallAct)),
    EmptyStart projectId s₀ ∧
    Run (Guarded (Steps IssueCalls.Enabled (IssueCalls.next organizationId))
      (IssueCalls.OnProject organizationId projectId)) s₀ as s ∧ s.world = w

theorem ReachableWorld.wellRanked {organizationId projectId : JsString} {w : World}
    (h : ReachableWorld organizationId projectId w) : WellRanked projectId w.db := by
  obtain ⟨τ, _, s₀, s, as, h₀, hrun, rfl⟩ := h
  exact (rank_stored h₀ hrun).1

/-- A `move` request that has passed the schema: an id that is supplied is a `cuid`. -/
structure MoveRequest where
  organizationId : JsString
  actorId : JsString
  issueId : JsString
  input : MoveIssueInput
  above : ∀ id ∈ input.aboveId, id ≠ []
  below : ∀ id ∈ input.belowId, id ≠ []

/-- The worlds in which a `move` makes its four calls: the issue is looked up, the two neighbours
are read, in whichever order the answers come, and the issue is written. -/
structure MoveMoments where
  found : World
  first : World
  second : World
  written : World
  belowFirst : Bool

namespace MoveMoments

def aboveRead (m : MoveMoments) : World := if m.belowFirst then m.second else m.first

def belowRead (m : MoveMoments) : World := if m.belowFirst then m.first else m.second

/-- The request after its four calls, and what the last of them left. -/
def calls (m : MoveMoments) (r : MoveRequest) (g : Gen) : IssueTask × World :=
  let step := IssueTask.step r.organizationId m.belowFirst g
  let found := (step (.start (.move r.actorId r.issueId r.input)) m.found).1
  let first := (step found m.first).1
  let second := (step first m.second).1
  step second m.written

end MoveMoments

/-- `n` is the issue with the id, in the project and the column. -/
structure IsNeighbour (db : Db) (projectId : JsString) (status : IssueStatus) (id : JsString)
    (n : Issue) : Prop where
  mem : n ∈ db.issues
  id : n.id = id
  project : n.projectId = projectId
  status : n.status = status

/-- The drop throws and writes nothing, or it puts the issue strictly between the neighbours that
the request names, which are cards of the target column when they are read. -/
def HeedsNeighbours (m : MoveMoments) (r : MoveRequest) (g : Gen) : Prop :=
  (∃ e, m.calls r g = (.done (.error e), m.written)) ∨
  ∃ issue rank announcement, m.found.db.findIssue r.organizationId r.issueId = some issue ∧
    m.calls r g = (.auditing announcement, { m.written with
      db := m.written.db.rewriteIssue issue.id (place r.input.status rank g.now) }) ∧
    (∀ id ∈ r.input.aboveId, ∃ n,
      IsNeighbour m.aboveRead.db issue.projectId r.input.status id n ∧ n.rank < rank) ∧
    ∀ id ∈ r.input.belowId, ∃ n,
      IsNeighbour m.belowRead.db issue.projectId r.input.status id n ∧ rank < n.rank

/-- The issue is not there, when it is looked up or when it is written, or every neighbour that the
request names is in the target column when it is read. -/
def NeighboursThere (m : MoveMoments) (r : MoveRequest) : Prop :=
  ∀ issue ∈ m.found.db.findIssue r.organizationId r.issueId,
    (∀ i ∈ m.written.db.issues, i.id ≠ issue.id) ∨
    (∀ id ∈ r.input.aboveId, ∃ n,
      IsNeighbour m.aboveRead.db issue.projectId r.input.status id n) ∧
    ∀ id ∈ r.input.belowId, ∃ n,
      IsNeighbour m.belowRead.db issue.projectId r.input.status id n

/-! ### The four calls -/

section Calls

variable {m : MoveMoments} {r : MoveRequest} {g : Gen}

theorem MoveMoments.calls_none
    (h : m.found.db.findIssue r.organizationId r.issueId = none) :
    m.calls r g = (.done (.error (.notFound (js "Issue not found"))), m.written) := by
  simp only [calls, IssueTask.step, IssueTask.found, h]

/-- Once the issue is found, the last call writes a rank between the two that were read. -/
theorem MoveMoments.calls_some {issue : Issue}
    (h : m.found.db.findIssue r.organizationId r.issueId = some issue) :
    m.calls r g = IssueTask.written
      ((dropRank
          (m.aboveRead.db.neighbourRank issue.projectId r.input.status r.input.aboveId)
          (m.belowRead.db.neighbourRank issue.projectId r.input.status r.input.belowId)).bind
        fun rank => m.written.db.updateIssue issue.id none (place r.input.status rank g.now))
      (movedAnnouncement r.organizationId r.actorId r.input issue) m.written := by
  simp only [calls, IssueTask.step, IssueTask.found, h]
  cases hfirst : m.belowFirst <;> simp [aboveRead, belowRead, hfirst]

/-- A neighbour in the column is the one the lookup answers. -/
theorem IsNeighbour.read {db : Db} {projectId id : JsString} {status : IssueStatus} {n : Issue}
    (h : IsNeighbour db projectId status id n) (hid : id ≠ []) :
    ∃ n', IsNeighbour db projectId status id n' ∧
      db.neighbourRank projectId status (some id) = some n'.rank := by
  have hsome : (db.issues.find? fun i => i.id == id && i.projectId == projectId &&
      i.status == status).isSome := by
    rw [List.find?_isSome]
    exact ⟨n, h.mem, by simp [h.id, h.project, h.status]⟩
  obtain ⟨n', hfind⟩ := Option.isSome_iff_exists.1 hsome
  have hn' := List.find?_some hfind
  simp only [Bool.and_eq_true, beq_iff_eq] at hn'
  refine ⟨n', ⟨List.mem_of_find?_eq_some hfind, hn'.1.1, hn'.1.2, hn'.2⟩, ?_⟩
  rw [Db.neighbourRank, truthy, Option.filter_some, if_pos (decide_eq_true hid), Option.bind_some,
    hfind, Option.map_some]

/-- A lookup that answers a rank has found a neighbour with it. -/
theorem isNeighbour_of_read {db : Db} {projectId x : JsString} {status : IssueStatus}
    {id : Option JsString} (h : db.neighbourRank projectId status id = some x) :
    ∀ id' ∈ id, ∃ n, IsNeighbour db projectId status id' n ∧ n.rank = x := by
  intro id' hid'
  obtain ⟨id'', hid, hrow⟩ := Option.bind_eq_some_iff.1 h
  obtain ⟨n, hfind, rfl⟩ := Option.map_eq_some_iff.1 hrow
  obtain rfl : id' = id'' := by
    rw [hid'] at hid
    exact Option.some.inj (Option.eq_some_of_filter_eq_some hid)
  have hn := List.find?_some hfind
  simp only [Bool.and_eq_true, beq_iff_eq] at hn
  exact ⟨n, ⟨List.mem_of_find?_eq_some hfind, hn.1.1, hn.1.2, hn.2⟩, rfl⟩

end Calls

/-- The worlds of a drop on an issue of the project. -/
structure MoveMoments.Reachable (projectId : JsString) (m : MoveMoments) (r : MoveRequest) :
    Prop where
  found : ReachableWorld r.organizationId projectId m.found
  first : ReachableWorld r.organizationId projectId m.first
  second : ReachableWorld r.organizationId projectId m.second
  written : ReachableWorld r.organizationId projectId m.written
  project : ∀ issue ∈ m.found.db.findIssue r.organizationId r.issueId, issue.projectId = projectId

section Reads

variable {projectId : JsString} {m : MoveMoments} {r : MoveRequest} {g : Gen}

theorem MoveMoments.Reachable.aboveRead (h : m.Reachable projectId r) :
    WellRanked projectId m.aboveRead.db := by
  unfold MoveMoments.aboveRead
  split
  · exact h.second.wellRanked
  · exact h.first.wellRanked

theorem MoveMoments.Reachable.belowRead (h : m.Reachable projectId r) :
    WellRanked projectId m.belowRead.db := by
  unfold MoveMoments.belowRead
  split
  · exact h.first.wellRanked
  · exact h.second.wellRanked

/-- Neighbours that are the wrong way round have both been found. -/
theorem dropRank_error {above below : Option JsString} {e : Exn}
    (h : dropRank above below = .error e) : ∃ x y, above = some x ∧ below = some y := by
  by_contra hno
  have hsorted : ∀ x ∈ above, ∀ y ∈ below, x < y :=
    fun x hx y hy => absurd ⟨x, y, hx, hy⟩ hno
  rw [dropRank, rankBetween_ok hsorted] at h
  cases h

/-- The write throws when the issue is gone. -/
theorem updateIssue_gone {db : Db} {issueId : JsString} {f : Issue → Issue}
    (h : ∀ i ∈ db.issues, i.id ≠ issueId) :
    db.updateIssue issueId none f = .error (.prisma .recordNotFound) := by
  have hnone : db.issues.find? (·.id == issueId) = none := by
    rw [List.find?_eq_none]
    intro i hi
    simpa using h i hi
  simp [Db.updateIssue, hnone]

theorem updateIssue_error {db : Db} {issueId : JsString} {f : Issue → Issue} {e : Exn}
    (h : db.updateIssue issueId none f = .error e) : ∀ i ∈ db.issues, i.id ≠ issueId := by
  intro i hi hid
  cases hfind : db.issues.find? (·.id == issueId) with
  | none => exact absurd (beq_iff_eq.2 hid) (List.find?_eq_none.1 hfind i hi)
  | some row =>
      rw [Db.updateIssue_of_find f hfind] at h
      cases h

/-- A last call that throws has found both neighbours, or has not found the issue. -/
theorem MoveMoments.there_of_error {issue : Issue} {e : Exn}
    (hfound : m.found.db.findIssue r.organizationId r.issueId = some issue)
    (herror : m.calls r g = (.done (.error e), m.written)) :
    (∀ i ∈ m.written.db.issues, i.id ≠ issue.id) ∨
    (∀ id ∈ r.input.aboveId, ∃ n,
      IsNeighbour m.aboveRead.db issue.projectId r.input.status id n) ∧
    ∀ id ∈ r.input.belowId, ∃ n,
      IsNeighbour m.belowRead.db issue.projectId r.input.status id n := by
  rw [MoveMoments.calls_some hfound] at herror
  cases hdrop : dropRank
      (m.aboveRead.db.neighbourRank issue.projectId r.input.status r.input.aboveId)
      (m.belowRead.db.neighbourRank issue.projectId r.input.status r.input.belowId) with
  | error e' =>
      obtain ⟨x, y, habove, hbelow⟩ := dropRank_error hdrop
      exact Or.inr ⟨fun id hid => (isNeighbour_of_read habove id hid).imp fun _ hn => hn.1,
        fun id hid => (isNeighbour_of_read hbelow id hid).imp fun _ hn => hn.1⟩
  | ok rank =>
      simp only [hdrop, Except.bind] at herror
      cases hupdate : m.written.db.updateIssue issue.id none (place r.input.status rank g.now) with
      | error e' => exact Or.inl (updateIssue_error hupdate)
      | ok written =>
          rw [hupdate] at herror
          cases herror

/-- The rank that is written lies between the neighbours that were found. -/
theorem HeedsNeighbours.of_there (h : m.Reachable projectId r) {issue : Issue}
    (hfound : m.found.db.findIssue r.organizationId r.issueId = some issue)
    (habove : ∀ id ∈ r.input.aboveId, ∃ n,
      IsNeighbour m.aboveRead.db issue.projectId r.input.status id n)
    (hbelow : ∀ id ∈ r.input.belowId, ∃ n,
      IsNeighbour m.belowRead.db issue.projectId r.input.status id n) :
    HeedsNeighbours m r g := by
  have hcalls := MoveMoments.calls_some (g := g) hfound
  obtain rfl := h.project issue hfound
  cases hdrop : dropRank
      (m.aboveRead.db.neighbourRank issue.projectId r.input.status r.input.aboveId)
      (m.belowRead.db.neighbourRank issue.projectId r.input.status r.input.belowId) with
  | error e =>
      rw [hdrop] at hcalls
      exact Or.inl ⟨e, hcalls⟩
  | ok rank =>
      simp only [hdrop, Except.bind] at hcalls
      cases hupdate : m.written.db.updateIssue issue.id none (place r.input.status rank g.now) with
      | error e =>
          rw [hupdate] at hcalls
          exact Or.inl ⟨e, hcalls⟩
      | ok written =>
          obtain ⟨row, db⟩ := written
          rw [hupdate] at hcalls
          obtain ⟨-, -, -, rfl⟩ := Db.updateIssue_ok hupdate
          obtain ⟨-, hgap⟩ := dropRank_inGap hdrop
            (neighbourRank_wellFormed h.aboveRead r.input.status r.input.aboveId)
            (neighbourRank_wellFormed h.belowRead r.input.status r.input.belowId)
          refine Or.inr ⟨issue, rank, _, hfound, hcalls, fun id hid => ?_, fun id hid => ?_⟩
          · obtain ⟨n, hn⟩ := habove id hid
            obtain ⟨n', hn', hread⟩ := hn.read (r.above id hid)
            rw [show r.input.aboveId = some id from hid] at hgap
            exact ⟨n', hn', hgap.1 _ hread⟩
          · obtain ⟨n, hn⟩ := hbelow id hid
            obtain ⟨n', hn', hread⟩ := hn.read (r.below id hid)
            rw [show r.input.belowId = some id from hid] at hgap
            exact ⟨n', hn', hgap.2 _ hread⟩

/-- An issue that is gone by the write is not written. -/
theorem HeedsNeighbours.of_gone {issue : Issue}
    (hfound : m.found.db.findIssue r.organizationId r.issueId = some issue)
    (hgone : ∀ i ∈ m.written.db.issues, i.id ≠ issue.id) : HeedsNeighbours m r g := by
  refine Or.inl ?_
  rw [MoveMoments.calls_some hfound]
  cases dropRank
      (m.aboveRead.db.neighbourRank issue.projectId r.input.status r.input.aboveId)
      (m.belowRead.db.neighbourRank issue.projectId r.input.status r.input.belowId) with
  | error e => exact ⟨e, rfl⟩
  | ok rank =>
      simp only [Except.bind, updateIssue_gone hgone]
      exact ⟨_, rfl⟩

end Reads

/-- **A drop and its neighbours.**  A `move` makes its calls in any worlds that requests on the
project lead to.  It throws and writes nothing, or puts the issue strictly between the neighbours it
names, exactly when each of these is a card of the target column at its read, or the issue is not
there. -/
theorem move_heeds_iff {projectId : JsString} (m : MoveMoments) (r : MoveRequest) (g : Gen)
    (h : m.Reachable projectId r) : HeedsNeighbours m r g ↔ NeighboursThere m r := by
  cases hfound : m.found.db.findIssue r.organizationId r.issueId with
  | none =>
      refine iff_of_true (Or.inl ⟨_, MoveMoments.calls_none hfound⟩) fun issue hissue => ?_
      rw [hfound] at hissue
      cases hissue
  | some issue =>
      constructor
      · intro hheeds issue' hissue'
        obtain rfl := Option.some.inj (hfound.symm.trans hissue')
        obtain ⟨e, herror⟩ | ⟨issue', rank, a, hissue', -, habove, hbelow⟩ := hheeds
        · exact MoveMoments.there_of_error hfound herror
        · obtain rfl := Option.some.inj (hfound.symm.trans hissue')
          exact Or.inr ⟨fun id hid => (habove id hid).imp fun _ hn => hn.1,
            fun id hid => (hbelow id hid).imp fun _ hn => hn.1⟩
      · intro hthere
        obtain hgone | ⟨habove, hbelow⟩ := hthere issue hfound
        · exact HeedsNeighbours.of_gone hfound hgone
        · exact HeedsNeighbours.of_there h hfound habove hbelow

/-! ### A neighbour in another column -/

namespace MoveNeighbours.Samples

open Demo (firstId secondId)
open StoredRanks.Samples (turn)
open IssueCalls.Samples (Client)

/-- A card in `BACKLOG` and one in `TODO`. -/
def request (t : Client) : IssueRequest :=
  .create Demo.userId.val Demo.project.key
    { title := js "Task", status := if t = .first then .BACKLOG else .TODO }

def start : IssueCalls Client where
  world := Demo.world
  call t := .outside (.start (request t))
  created := []

theorem start_ok : EmptyStart Demo.projectId.val start where
  none := by decide
  calls t := ⟨request t, rfl⟩

def creates : List (Client × CallAct) :=
  List.replicate 5 (turn .first firstId) ++ List.replicate 5 (turn .second secondId)

/-- Both cards are there. -/
def world : World := (creates.foldl (IssueCalls.next Demo.orgId.val) start).world

theorem world_reachable : ReachableWorld Demo.orgId.val Demo.projectId.val world :=
  ⟨Client, inferInstance, start, creates.foldl (IssueCalls.next Demo.orgId.val) start, creates,
    start_ok,
    Along.guarded (show Along _ (IssueCalls.next Demo.orgId.val) start creates by decide), rfl⟩

/-- A drop of the first card into a column, below the second. -/
def drop (status : IssueStatus) : MoveRequest where
  organizationId := Demo.orgId.val
  actorId := Demo.userId.val
  issueId := firstId.val
  input := ⟨status, some secondId.val, none⟩
  above := by
    intro id hid
    rw [← Option.some.inj hid]
    exact secondId.ne_nil
  below := fun _ hid => by cases hid

/-- Nothing happens between the calls. -/
def moments : MoveMoments := ⟨world, world, world, world, false⟩

theorem moments_reachable (status : IssueStatus) :
    moments.Reachable Demo.projectId.val (drop status) where
  found := world_reachable
  first := world_reachable
  second := world_reachable
  written := world_reachable
  project := by
    change ∀ issue ∈ world.db.findIssue Demo.orgId.val firstId.val, _
    decide

theorem second_there : ∃ n ∈ world.db.issues, n.id = secondId.val ∧
    n.projectId = Demo.projectId.val ∧ n.status = .TODO := by
  decide

theorem neighbours_there : NeighboursThere moments (drop .TODO) := by
  intro issue hissue
  have hproject : issue.projectId = Demo.projectId.val :=
    (moments_reachable .TODO).project issue hissue
  refine Or.inr ⟨?_, fun id hid => by cases hid⟩
  rintro id ⟨⟩
  obtain ⟨n, hmem, hid, hproj, hstatus⟩ := second_there
  exact ⟨n, hmem, hid, hproj.trans hproject.symm, hstatus⟩

end MoveNeighbours.Samples

open MoveNeighbours.Samples in
/-- Below a card of the target column. -/
theorem move_heeds_todo : HeedsNeighbours moments (drop .TODO) (Demo.gen Demo.thirdId) :=
  (move_heeds_iff moments (drop .TODO) (Demo.gen Demo.thirdId) (moments_reachable .TODO)).2
    neighbours_there

open MoveNeighbours.Samples in
/-- Below a card that is in another column: the drop goes through all the same. -/
theorem move_ignores_neighbour :
    ¬ ∀ (projectId : JsString) (m : MoveMoments) (r : MoveRequest) (g : Gen),
      m.Reachable projectId r → HeedsNeighbours m r g := by
  intro hall
  have hheeds := hall _ moments (drop .DONE) (Demo.gen Demo.thirdId) (moments_reachable .DONE)
  have hnone : ∀ n ∈ world.db.issues, n.status ≠ .DONE := by decide
  obtain ⟨card, hcard⟩ : ∃ card, world.db.findIssue Demo.orgId.val Demo.firstId.val = some card :=
    Option.isSome_iff_exists.1 (by decide)
  obtain ⟨e, herror⟩ | ⟨issue, rank, a, -, -, habove, -⟩ := hheeds
  · obtain hgone | ⟨habove, -⟩ := MoveMoments.there_of_error hcard herror
    · exact hgone card (Db.findIssue_some hcard).1 rfl
    · obtain ⟨n, hn⟩ := habove Demo.secondId.val rfl
      exact hnone n hn.mem hn.status
  · obtain ⟨n, hn, -⟩ := habove Demo.secondId.val rfl
    exact hnone n hn.mem hn.status

end PmSaas
