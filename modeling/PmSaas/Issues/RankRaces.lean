import Mathlib.Data.Fintype.Defs
import PmSaas.Lib.Interleaving
import PmSaas.Issues.Board
import PmSaas.Issues.IssueTasks

/-!
# Clients that drop cards at the same time

Any number of clients look at the board of one project and send requests: a `create`, or a `move`
that names the two cards at a drop point of the board they saw.  The requests take turns, one
database call at a time; the transaction of `create` is one call.  `move` writes a rank between two
ranks that it read some calls before, and does not look again whether the two cards are still
neighbours, so two cards dropped into one gap get one rank (`two_drops_in_one_gap`).

* `distinctRanks_of_gapOpen`: as long as every gap is still empty when its card is written into it,
  no two cards of a column have the same rank.
* `BoardInv.gapOpen`: a drop on a board that has not changed finds its gap empty.
-/

namespace PmSaas

open SortBy Table TransitionSystem IssuesService

/-- The board of a project, as a client sees it. -/
def Db.board (projectId : JsString) (db : Db) : Board :=
  fun s => (db.column projectId s).map Issue.id

/-- A client at one of its requests. -/
inductive BoardUser where
  | idle
  /-- It has seen this board. -/
  | viewing (board : Board)
  | sent (task : IssueTask)

inductive UserAct where
  | look
  | send (request : IssueRequest)
  /-- The request makes its next database call. -/
  | run (belowFirst : Bool) (g : Gen)

/-- What the page of a board sends: a new card, or a drop of one of its cards. -/
def IssueRequest.FromBoard (projectKey : JsString) (board : Board) : IssueRequest → Prop
  | .create _ key _ => key = projectKey
  | .move _ issueId input =>
      (∃ s, issueId ∈ board s) ∧
        Adjacent input.aboveId input.belowId (board.remove issueId input.status)
  | .update .. => False
  | .remove .. => False

namespace BoardUser

def Enabled (projectKey : JsString) : BoardUser → UserAct → Prop
  | .idle, .look => True
  | .viewing _, .look => True
  | .viewing board, .send request => request.FromBoard projectKey board
  | .sent _, .run .. => True
  | _, _ => False

def act (organizationId projectId : JsString) : UserAct → BoardUser → World → BoardUser × World
  | .look, _, w => (.viewing (w.db.board projectId), w)
  | .send request, _, w => (.sent (.start request), w)
  | .run belowFirst g, .sent task, w =>
      (.sent (task.step organizationId belowFirst g w).1,
        (task.step organizationId belowFirst g w).2)
  | .run .., user, w => (user, w)

end BoardUser

/-- The clients, one for each request `τ`, and the server. -/
abbrev BoardRoom (τ : Type*) := Pool τ BoardUser World

section Room

variable {τ : Type*}

namespace BoardRoom

def Enabled (projectKey : JsString) (s : BoardRoom τ) (a : τ × UserAct) : Prop :=
  (s.thread a.1).Enabled projectKey a.2

def next [DecidableEq τ] (organizationId projectId : JsString) (s : BoardRoom τ)
    (a : τ × UserAct) : BoardRoom τ :=
  s.advance (BoardUser.act organizationId projectId a.2) a.1

end BoardRoom

/-- No two cards of a column have the same rank. -/
def DistinctRanks (projectId : JsString) (db : Db) : Prop :=
  ∀ s, UniqueKey Issue.rank (db.columnRows projectId s)

/-- The ranks of a project are in order. -/
structure Ranked (projectId : JsString) (db : Db) : Prop where
  ids : UniqueKey Issue.id db.issues
  wellFormed : ∀ i ∈ db.issues, i.projectId = projectId → WellFormedRank i.rank
  distinct : DistinctRanks projectId db

/-- No client has looked at the board. -/
structure RoomStart (organizationId projectKey projectId : JsString) (s : BoardRoom τ) :
    Prop where
  project : ∃ p, s.store.db.findProject organizationId projectKey = some p ∧ p.id = projectId
  ranked : Ranked projectId s.store.db
  idle : ∀ t, s.thread t = .idle

/-- The rank lies between two bounds, `none` being no bound. -/
def InGap (above below : Option JsString) (rank : JsString) : Prop :=
  (∀ x ∈ above, x < rank) ∧ ∀ y ∈ below, rank < y

/-- If the next call of the task writes a card into a gap, no other card is in the gap. -/
def IssueTask.GapOpen (db : Db) : IssueTask → Prop
  | .placing issue _ input (some above) (some below) =>
      ∀ i ∈ db.columnRows issue.projectId input.status, i.id ≠ issue.id →
        ¬InGap above below i.rank
  | _ => True

/-- The step of a request that writes into a gap finds it open. -/
def BoardUser.GapOpen (db : Db) : BoardUser → UserAct → Prop
  | .sent task, .run .. => task.GapOpen db
  | _, _ => True

def BoardRoom.GapOpen (s : BoardRoom τ) (a : τ × UserAct) : Prop :=
  (s.thread a.1).GapOpen s.store.db a.2

end Room

/-! ### Deciding what a client may do -/

instance IssueStatus.fintype : Fintype IssueStatus where
  elems := {.BACKLOG, .TODO, .IN_PROGRESS, .IN_REVIEW, .DONE, .CANCELED}
  complete s := by cases s <;> decide

instance Adjacent.decidable (above below : Option JsString) (col : List JsString) :
    Decidable (Adjacent above below col) :=
  decidable_of_iff
    (∃ k ∈ List.range (col.length + 1), (col.take k).getLast? = above ∧ (col.drop k).head? = below)
    ⟨fun ⟨k, _, h⟩ => ⟨col.take k, col.drop k, (List.take_append_drop k col).symm, h⟩,
      fun ⟨pre, post, hcol, h⟩ => ⟨pre.length, by simp [hcol], by simpa [hcol] using h⟩⟩

instance IssueRequest.FromBoard.decidable (projectKey : JsString) (board : Board) :
    ∀ request, Decidable (IssueRequest.FromBoard projectKey board request)
  | .create _ key _ => inferInstanceAs (Decidable (key = projectKey))
  | .move _ issueId input =>
      inferInstanceAs (Decidable ((∃ s, issueId ∈ board s) ∧
        Adjacent input.aboveId input.belowId (board.remove issueId input.status)))
  | .update .. => inferInstanceAs (Decidable False)
  | .remove .. => inferInstanceAs (Decidable False)

instance BoardUser.Enabled.decidable (projectKey : JsString) :
    ∀ user act, Decidable (BoardUser.Enabled projectKey user act)
  | .idle, .look => inferInstanceAs (Decidable True)
  | .idle, .send _ => inferInstanceAs (Decidable False)
  | .idle, .run .. => inferInstanceAs (Decidable False)
  | .viewing _, .look => inferInstanceAs (Decidable True)
  | .viewing board, .send request => IssueRequest.FromBoard.decidable projectKey board request
  | .viewing _, .run .. => inferInstanceAs (Decidable False)
  | .sent _, .look => inferInstanceAs (Decidable False)
  | .sent _, .send _ => inferInstanceAs (Decidable False)
  | .sent _, .run .. => inferInstanceAs (Decidable True)

instance BoardRoom.Enabled.decidable {τ : Type*} (projectKey : JsString) (s : BoardRoom τ)
    (a : τ × UserAct) : Decidable (s.Enabled projectKey a) :=
  BoardUser.Enabled.decidable projectKey (s.thread a.1) a.2

instance InGap.decidable (above below : Option JsString) (rank : JsString) :
    Decidable (InGap above below rank) :=
  inferInstanceAs (Decidable ((∀ x ∈ above, x < rank) ∧ ∀ y ∈ below, rank < y))

instance IssueTask.GapOpen.decidable (db : Db) : ∀ task, Decidable (IssueTask.GapOpen db task)
  | .placing issue _ input (some above) (some below) =>
      inferInstanceAs (Decidable (∀ i ∈ db.columnRows issue.projectId input.status,
        i.id ≠ issue.id → ¬InGap above below i.rank))
  | .placing _ _ _ none _ => inferInstanceAs (Decidable True)
  | .placing _ _ _ (some _) none => inferInstanceAs (Decidable True)
  | .start _ => inferInstanceAs (Decidable True)
  | .creating .. => inferInstanceAs (Decidable True)
  | .updating .. => inferInstanceAs (Decidable True)
  | .removing .. => inferInstanceAs (Decidable True)
  | .auditing _ => inferInstanceAs (Decidable True)
  | .emitting _ => inferInstanceAs (Decidable True)
  | .notifying _ => inferInstanceAs (Decidable True)
  | .done _ => inferInstanceAs (Decidable True)

instance BoardUser.GapOpen.decidable (db : Db) :
    ∀ user act, Decidable (BoardUser.GapOpen db user act)
  | .sent task, .run .. => IssueTask.GapOpen.decidable db task
  | .sent _, .look => inferInstanceAs (Decidable True)
  | .sent _, .send _ => inferInstanceAs (Decidable True)
  | .idle, _ => inferInstanceAs (Decidable True)
  | .viewing _, _ => inferInstanceAs (Decidable True)

instance BoardRoom.GapOpen.decidable {τ : Type*} (s : BoardRoom τ) (a : τ × UserAct) :
    Decidable (s.GapOpen a) :=
  BoardUser.GapOpen.decidable s.store.db (s.thread a.1) a.2

/-! ### What the writes do to the ranks -/

section Ranks

variable {organizationId projectId : JsString} {db db' : Db}

theorem Ranked.congr (h : Ranked projectId db) (hissues : db'.issues = db.issues) :
    Ranked projectId db' := by
  refine ⟨hissues ▸ h.ids, hissues ▸ h.wellFormed, fun s => ?_⟩
  have hrows : db'.columnRows projectId s = db.columnRows projectId s := by
    rw [Db.columnRows, Db.columnRows, hissues]
  rw [hrows]
  exact h.distinct s

/-- A successful `dropRank` lies in the gap it was asked for. -/
theorem dropRank_inGap {above below : Option JsString} {rank : JsString}
    (h : dropRank above below = .ok rank) (habove : ∀ x ∈ above, WellFormedRank x)
    (hbelow : ∀ y ∈ below, WellFormedRank y) :
    WellFormedRank rank ∧ InGap above below rank := by
  have hsorted : ∀ x ∈ above, ∀ y ∈ below, x < y := by
    rintro x rfl y rfl
    by_contra hge
    rw [dropRank, rankBetween_eq] at h
    simp only [if_neg hge] at h
    cases h
  rw [dropRank, rankBetween_ok hsorted] at h
  cases h
  exact ⟨rankMid_wellFormed, lt_rankMid habove, rankMid_lt ⟨habove, hbelow, hsorted⟩⟩

theorem neighbourRank_wellFormed
    (h : ∀ i ∈ db.issues, i.projectId = projectId → WellFormedRank i.rank) (s : IssueStatus)
    (id : Option JsString) : ∀ x ∈ db.neighbourRank projectId s id, WellFormedRank x := by
  intro x hx
  obtain ⟨id, _, hrow⟩ := Option.bind_eq_some_iff.1 hx
  obtain ⟨i, hfind, rfl⟩ := Option.map_eq_some_iff.1 hrow
  have hi := List.find?_some hfind
  simp only [Bool.and_eq_true, beq_iff_eq] at hi
  exact h i (List.mem_of_find?_eq_some hfind) hi.1.2

/-- A new row, if it belongs to the project, needs a rank of its own in its column. -/
theorem Ranked.insertIssue (h : Ranked projectId db) {row : Issue}
    (hissues : db'.issues = db.issues ++ [row]) (hfresh : ∀ i ∈ db.issues, i.id ≠ row.id)
    (hrank : row.projectId = projectId → WellFormedRank row.rank ∧
      ∀ j ∈ db.columnRows projectId row.status, j.rank ≠ row.rank) : Ranked projectId db' := by
  refine ⟨hissues ▸ h.ids.insert hfresh, fun i hi hproj => ?_, fun s => ?_⟩
  · rw [hissues, List.mem_append, List.mem_singleton] at hi
    rcases hi with hi | rfl
    · exact h.wellFormed i hi hproj
    · exact (hrank hproj).1
  · by_cases hrow : row.projectId = projectId ∧ row.status = s
    · obtain ⟨hproj, rfl⟩ := hrow
      have hrows : db'.columnRows projectId row.status =
          db.columnRows projectId row.status ++ [row] := by
        simp [Db.columnRows, hissues, hproj]
      rw [hrows]
      exact (h.distinct _).insert (hrank hproj).2
    · have hrows : db'.columnRows projectId s = db.columnRows projectId s := by
        rw [Db.columnRows, hissues]
        exact filter_insert (by simpa using hrow)
      rw [hrows]
      exact h.distinct s

/-- `create` ranks its card below the whole column. -/
theorem Ranked.create (h : Ranked projectId db) {actorId projectId' : JsString}
    {input : CreateIssueInput} {g : Gen} {issue : IssueView}
    (htx : db.createIssueTx organizationId actorId projectId' input g = .ok (issue, db')) :
    Ranked projectId db' := by
  obtain ⟨project, rank, _, hrank, hins⟩ := Db.createIssueTx_ok htx
  obtain ⟨_, rfl, hfresh, _, _⟩ := Db.createIssue_ok hins
  refine h.insertIssue rfl hfresh fun hproj => ?_
  obtain rfl : projectId' = projectId := hproj
  obtain ⟨hwf, hlast⟩ := appendRank_last hrank fun i hi =>
    h.wellFormed i (mem_columnRows.1 hi).1 (mem_columnRows.1 hi).2.1
  exact ⟨hwf, fun j hj => ne_of_lt (hlast j hj)⟩

/-- A card that is put elsewhere needs a rank of its own there. -/
theorem Ranked.rewriteIssue (h : Ranked projectId db) {row : Issue} (hrow : row ∈ db.issues)
    (status : IssueStatus) {rank : JsString} (now : Date)
    (hrank : row.projectId = projectId → WellFormedRank rank ∧
      ∀ i ∈ db.columnRows projectId status, i.id ≠ row.id → i.rank ≠ rank) :
    Ranked projectId (db.rewriteIssue row.id (place status rank now)) := by
  refine ⟨h.ids.update fun _ _ _ => rfl, fun i hi hproj => ?_, fun s => ?_⟩
  · obtain ⟨j, hj, rfl⟩ := mem_updateWhere.1 hi
    by_cases hid : j.id = row.id
    · obtain rfl := h.ids.eq_of_key_eq hj hrow hid
      simp only [beq_self_eq_true, if_true] at hproj ⊢
      exact (hrank hproj).1
    · simp only [beq_eq_false_iff_ne.2 hid, Bool.false_eq_true, if_false] at hproj ⊢
      exact h.wellFormed j hj hproj
  · by_cases hproj : row.projectId = projectId
    · refine ((columnRows_place h.ids hrow hproj status rank now s).map Issue.rank).nodup_iff.2 ?_
      have hrest : UniqueKey Issue.rank
          ((db.columnRows projectId s).filter fun i => i.id != row.id) :=
        (h.distinct s).sublist (List.filter_sublist.map _)
      by_cases hs : s = status
      · subst hs
        rw [if_pos rfl, List.singleton_append, List.map_cons, List.nodup_cons]
        refine ⟨fun hmem => ?_, hrest⟩
        obtain ⟨i, hi, heq⟩ := List.mem_map.1 hmem
        obtain ⟨hi, hne⟩ := List.mem_filter.1 hi
        exact (hrank hproj).2 i hi (by simpa using hne) heq
      · rw [if_neg hs]
        exact hrest
    · have hrows : (db.rewriteIssue row.id (place status rank now)).columnRows
          projectId s = db.columnRows projectId s := by
        refine filter_updateWhere fun i hi hid => ?_
        obtain rfl := h.ids.eq_of_key_eq hi hrow (beq_iff_eq.1 hid)
        simp [place, hproj]
      rw [hrows]
      exact h.distinct s

/-- **A drop on a board that has not changed** finds its gap open. -/
theorem BoardInv.gapOpen {projectKey : JsString} {b : Board} {issue : Issue}
    {input : MoveIssueInput}
    (h : BoardInv organizationId projectKey projectId db b) (hproj : issue.projectId = projectId)
    (hadj : Adjacent input.aboveId input.belowId (b.remove issue.id input.status))
    (actorId : JsString) :
    (IssueTask.placing issue actorId input
      (some (db.neighbourRank projectId input.status input.aboveId))
      (some (db.neighbourRank projectId input.status input.belowId))).GapOpen db := by
  obtain ⟨pre, post, hsplit, _, _, habove, hbelow⟩ := h.gap hadj
  have hincr : Increasing Issue.rank (pre ++ post) :=
    hsplit ▸ (h.increasing input.status).sublist List.filter_sublist
  rw [habove, hbelow]
  rintro i hi hne ⟨hlower, hupper⟩
  rw [hproj] at hi
  have hmem : i ∈ pre ++ post := by
    rw [← hsplit, List.mem_filter]
    exact ⟨mem_sortBy.2 hi, by simpa using hne⟩
  rcases List.mem_append.1 hmem with hi | hi
  · exact lt_irrefl i.rank (lt_of_getLast? (List.pairwise_append.1 hincr).1
      (fun y hy => hlower _ (Option.mem_map_of_mem _ hy)) i hi)
  · exact lt_irrefl i.rank (lt_of_head? (List.pairwise_append.1 hincr).2.1
      (fun y hy => hupper _ (Option.mem_map_of_mem _ hy)) i hi)

end Ranks

/-! ### What a request has read -/

/-- The ranks a query has answered are well-formed. -/
def ReadRank (answer : Option (Option JsString)) : Prop :=
  ∀ rank ∈ answer, ∀ x ∈ rank, WellFormedRank x

theorem readRank_none : ReadRank none := fun _ h => by cases h

/-- A request that creates or moves a card has read rows of the database. -/
def IssueTask.Ranking (projectId : JsString) (db : Db) : IssueTask → Prop
  | .start (.update ..) | .start (.remove ..) | .updating .. | .removing .. => False
  | .placing issue _ _ above below =>
      (∃ row ∈ db.issues, row.id = issue.id ∧ row.projectId = issue.projectId) ∧
        (issue.projectId = projectId → ReadRank above ∧ ReadRank below)
  | _ => True

/-- No card is taken off or put into another project. -/
def KeepsCards (db db' : Db) : Prop :=
  ∀ i ∈ db.issues, ∃ i' ∈ db'.issues, i'.id = i.id ∧ i'.projectId = i.projectId

/-- A step leaves the ranks in order, every card there, and its task with rows of the database. -/
structure KeepsRanks (projectId : JsString) (db : Db) (r : IssueTask × World) : Prop where
  ranked : Ranked projectId r.2.db
  cards : KeepsCards db r.2.db
  reads : r.1.Ranking projectId r.2.db

section Step

variable {organizationId projectId : JsString} {db db' : Db} {w : World}

theorem KeepsCards.refl (db : Db) : KeepsCards db db := fun i hi => ⟨i, hi, rfl, rfl⟩

theorem KeepsCards.of_issues (hissues : db'.issues = db.issues) : KeepsCards db db' :=
  fun i hi => ⟨i, hissues ▸ hi, rfl, rfl⟩

/-- What a waiting task has read survives the steps of the others. -/
theorem IssueTask.Ranking.mono {task : IssueTask} (h : task.Ranking projectId db)
    (hcards : KeepsCards db db') : task.Ranking projectId db' := by
  cases task with
  | placing issue actorId input above below =>
      obtain ⟨⟨row, hrow, hid, hproj⟩, hread⟩ := h
      obtain ⟨row', hrow', hid', hproj'⟩ := hcards row hrow
      exact ⟨⟨row', hrow', hid'.trans hid, hproj'.trans hproj⟩, hread⟩
  | start request => cases request <;> exact h
  | _ => exact h

/-- A step that leaves the database alone. -/
theorem KeepsRanks.quiet (hdb : Ranked projectId w.db) {task : IssueTask}
    (h : task.Ranking projectId w.db) : KeepsRanks projectId w.db (task, w) :=
  ⟨hdb, .refl _, h⟩

/-- A step that leaves the issues alone. -/
theorem KeepsRanks.elsewhere (hdb : Ranked projectId w.db) {task : IssueTask} {w' : World}
    (hissues : w'.db.issues = w.db.issues) (h : task.Ranking projectId w'.db) :
    KeepsRanks projectId w.db (task, w') :=
  ⟨hdb.congr hissues, .of_issues hissues, h⟩

theorem KeepsRanks.creating (hdb : Ranked projectId w.db) (projectId' actorId : JsString)
    (input : CreateIssueInput) (g : Gen) (belowFirst : Bool) :
    KeepsRanks projectId w.db
      (IssueTask.step organizationId belowFirst g (.creating projectId' actorId input) w) := by
  rw [IssueTask.step]
  cases htx : w.db.createIssueTx organizationId actorId projectId' input g with
  | error e => exact .quiet hdb trivial
  | ok r =>
      obtain ⟨issue, db'⟩ := r
      refine ⟨hdb.create htx, fun i hi => ⟨i, ?_, rfl, rfl⟩, trivial⟩
      obtain ⟨_, _, _, _, hins⟩ := Db.createIssueTx_ok htx
      obtain ⟨_, rfl, _⟩ := Db.createIssue_ok hins
      exact List.mem_append_left _ hi

/-- **A card written into an open gap gets a rank of its own.** -/
theorem KeepsRanks.placing (hdb : Ranked projectId w.db) {issue : Issue} {actorId : JsString}
    {input : MoveIssueInput} {above below : Option JsString} (g : Gen) (belowFirst : Bool)
    (h : (IssueTask.placing issue actorId input (some above) (some below)).Ranking projectId w.db)
    (hgap : (IssueTask.placing issue actorId input (some above) (some below)).GapOpen w.db) :
    KeepsRanks projectId w.db (IssueTask.step organizationId belowFirst g
      (.placing issue actorId input (some above) (some below)) w) := by
  obtain ⟨⟨row, hrow, hid, hproj⟩, hread⟩ := h
  rw [IssueTask.step, ← hid]
  cases hdrop : dropRank above below with
  | error e => exact .quiet hdb trivial
  | ok rank =>
      simp only [Except.bind]
      cases hu : w.db.updateIssue row.id none (place input.status rank g.now) with
      | error e => exact .quiet hdb trivial
      | ok r =>
          obtain ⟨row', db'⟩ := r
          obtain ⟨_, _, _, rfl⟩ := Db.updateIssue_ok hu
          refine ⟨hdb.rewriteIssue hrow input.status g.now fun hmine => ?_, fun i hi => ?_, trivial⟩
          · obtain ⟨habove, hbelow⟩ := hread (hproj ▸ hmine)
            obtain ⟨hwf, hin⟩ := dropRank_inGap hdrop (habove _ rfl) (hbelow _ rfl)
            refine ⟨hwf, fun i hi hne heq => ?_⟩
            -- a card with that rank would be in the gap
            have hmem : i ∈ w.db.columnRows issue.projectId input.status := by
              rw [← hproj, hmine]
              exact hi
            exact hgap i hmem (hid ▸ hne) (heq ▸ hin)
          · refine ⟨_, mem_updateWhere.2 ⟨i, hi, rfl⟩, ?_, ?_⟩
            · split <;> rfl
            · split <;> rfl

theorem KeepsRanks.start (hdb : Ranked projectId w.db) {request : IssueRequest}
    (h : (IssueTask.start request).Ranking projectId w.db) (g : Gen) (belowFirst : Bool) :
    KeepsRanks projectId w.db
      (IssueTask.step organizationId belowFirst g (.start request) w) := by
  cases request with
  | create actorId projectKey input =>
      rw [IssueTask.step]
      cases w.db.findProject organizationId projectKey with
      | none => exact .quiet hdb trivial
      | some project => exact .quiet hdb trivial
  | move actorId issueId input =>
      rw [IssueTask.step]
      cases hfind : w.db.findIssue organizationId issueId with
      | none => exact .quiet hdb trivial
      | some issue =>
          exact .quiet hdb ⟨⟨issue, (Db.findIssue_some hfind).1, rfl, rfl⟩,
            fun _ => ⟨readRank_none, readRank_none⟩⟩
  | update actorId issueId input => exact h.elim
  | remove actorId issueId => exact h.elim

/-- **A step keeps the ranks in order** if the gap it writes into is open. -/
theorem IssueTask.Ranking.step {task : IssueTask} (h : task.Ranking projectId w.db)
    (hdb : Ranked projectId w.db) (hgap : task.GapOpen w.db) (belowFirst : Bool) (g : Gen) :
    KeepsRanks projectId w.db (task.step organizationId belowFirst g w) := by
  have hrank : ∀ {issue : Issue} {input : MoveIssueInput} {id : Option JsString},
      issue.projectId = projectId →
        ReadRank (some (w.db.neighbourRank issue.projectId input.status id)) := by
    rintro issue input id rfl _ ⟨⟩
    exact neighbourRank_wellFormed hdb.wellFormed input.status id
  cases task with
  | start request => exact .start hdb h g belowFirst
  | creating projectId' actorId input => exact .creating hdb projectId' actorId input g belowFirst
  | updating before actorId issueId input => exact h.elim
  | placing issue actorId input above below =>
      cases above with
      | none =>
          cases below with
          | none =>
              rw [IssueTask.step]
              cases belowFirst with
              | true => exact .quiet hdb ⟨h.1, fun hproj => ⟨(h.2 hproj).1, hrank hproj⟩⟩
              | false => exact .quiet hdb ⟨h.1, fun hproj => ⟨hrank hproj, (h.2 hproj).2⟩⟩
          | some below => exact .quiet hdb ⟨h.1, fun hproj => ⟨hrank hproj, (h.2 hproj).2⟩⟩
      | some above =>
          cases below with
          | none => exact .quiet hdb ⟨h.1, fun hproj => ⟨(h.2 hproj).1, hrank hproj⟩⟩
          | some below => exact .placing hdb g belowFirst h hgap
  | removing issue actorId => exact h.elim
  | auditing a =>
      have hlater : Aftermath a.entry.organizationId w (w.recorded a.entry (g.cuid 0) g.now) :=
        .recorded (g.cuid 0) g.now w
      exact .elsewhere hdb hlater.issues trivial
  | emitting a =>
      rw [IssueTask.step]
      cases a.job with
      | none => exact .elsewhere hdb rfl trivial
      | some job => exact .elsewhere hdb rfl trivial
  | notifying job =>
      exact .elsewhere hdb (congrArg Db.issues (World.enqueued_db w job)) trivial
  | done answer => exact .quiet hdb trivial

end Step

/-! ### Runs -/

section Runs

variable {τ : Type*} [DecidableEq τ] {organizationId projectKey projectId : JsString}

/-- What a client has read is there. -/
def BoardUser.Ranking (projectId : JsString) (db : Db) : BoardUser → Prop
  | .sent task => task.Ranking projectId db
  | _ => True

theorem BoardUser.Ranking.mono {user : BoardUser} {db db' : Db}
    (h : user.Ranking projectId db) (hcards : KeepsCards db db') : user.Ranking projectId db' := by
  cases user with
  | sent task => exact IssueTask.Ranking.mono h hcards
  | _ => trivial

/-- The ranks are in order and the clients rely on what they have read. -/
structure BoardRoom.Sound (projectId : JsString) (s : BoardRoom τ) : Prop where
  ranked : Ranked projectId s.store.db
  reads : ∀ t, (s.thread t).Ranking projectId s.store.db

namespace BoardRoom

variable {s s' : BoardRoom τ}

omit [DecidableEq τ] in
theorem Sound.start (h : RoomStart organizationId projectKey projectId s) : s.Sound projectId := by
  refine ⟨h.ranked, fun t => ?_⟩
  rw [h.idle t]
  trivial

/-- One client moves on, the others stay where they are. -/
theorem Sound.advance (h : s.Sound projectId) {t : τ} {f : BoardUser → World → BoardUser × World}
    (hranked : Ranked projectId (f (s.thread t) s.store).2.db)
    (hcards : KeepsCards s.store.db (f (s.thread t) s.store).2.db)
    (hreads : (f (s.thread t) s.store).1.Ranking projectId (f (s.thread t) s.store).2.db) :
    Sound projectId (s.advance f t) := by
  refine ⟨hranked, fun t' => ?_⟩
  by_cases ht : t' = t
  · subst ht
    rw [Pool.advance_thread_self]
    exact hreads
  · rw [Pool.advance_thread_of_ne _ _ ht]
    exact (h.reads t').mono hcards

/-- **Every step of a client keeps the ranks in order** if the gap it writes into is open. -/
theorem Sound.next (h : s.Sound projectId) {a : τ × UserAct} (henabled : s.Enabled projectKey a)
    (hgap : s.GapOpen a) : (s.next organizationId projectId a).Sound projectId := by
  obtain ⟨t, act⟩ := a
  have hreads := h.reads t
  simp only [Enabled] at henabled
  simp only [GapOpen] at hgap
  cases hthread : s.thread t with
  | idle =>
      rw [hthread] at henabled
      cases act with
      | look => exact h.advance h.ranked (.refl _) trivial
      | send request => exact henabled.elim
      | run belowFirst g => exact henabled.elim
  | viewing board =>
      rw [hthread] at henabled
      cases act with
      | look => exact h.advance h.ranked (.refl _) trivial
      | send request =>
          refine h.advance h.ranked (.refl _) ?_
          cases request with
          | create actorId key input => trivial
          | move actorId issueId input => trivial
          | update actorId issueId input => exact henabled.elim
          | remove actorId issueId => exact henabled.elim
      | run belowFirst g => exact henabled.elim
  | sent task =>
      rw [hthread] at henabled hgap hreads
      cases act with
      | look => exact henabled.elim
      | send request => exact henabled.elim
      | run belowFirst g =>
          have hstep : KeepsRanks projectId s.store.db
              (task.step organizationId belowFirst g s.store) :=
            IssueTask.Ranking.step hreads h.ranked hgap belowFirst g
          refine h.advance ?_ ?_ ?_ <;> rw [hthread]
          · exact hstep.ranked
          · exact hstep.cards
          · exact hstep.reads

end BoardRoom

/-- **Open gaps keep ranks apart.**  In every run in which no move writes its card between two
ranks that have another card of the column between them by then, no two cards of a column have the
same rank in any state. -/
theorem distinctRanks_of_gapOpen {s₀ s : BoardRoom τ} {as : List (τ × UserAct)}
    (h₀ : RoomStart organizationId projectKey projectId s₀)
    (hrun : Run (Guarded (Steps (BoardRoom.Enabled projectKey)
      (BoardRoom.next organizationId projectId)) BoardRoom.GapOpen) s₀ as s) :
    DistinctRanks projectId s.store.db := by
  have h : s.Sound projectId := by
    refine hrun.invariant (P := BoardRoom.Sound projectId) ?_ (.start h₀)
    rintro s a _ hs ⟨⟨henabled, rfl⟩, hgap⟩
    exact hs.next henabled hgap
  exact h.ranked.distinct

end Runs

/-! ### Two cards dropped at the same time -/

namespace BoardRoom.Samples

def card (id : JsString) (number : ℕ) (status : IssueStatus) (rank : JsString) : Issue where
  id := id
  organizationId := Demo.orgId.val
  projectId := Demo.projectId.val
  number := number
  title := id
  description := none
  status := status
  priority := .NONE
  rank := rank
  reporterId := Demo.userId.val
  assigneeId := none
  dueDate := none
  createdAt := 0
  updatedAt := 0

def cardX : JsString := js "cx"
def cardY : JsString := js "cy"

/-- The cards `A` and `B` are in the backlog, `X` and `Y` are to be done. -/
def start : BoardRoom Bool where
  store := { Demo.world with db := { Demo.world.db with
    issues := [card Demo.cardA.val 1 .BACKLOG (js "V"), card Demo.cardB.val 2 .BACKLOG (js "k"),
      card cardX 3 .TODO (js "V"), card cardY 4 .TODO (js "k")] } }
  thread _ := .idle

theorem start_ok : RoomStart Demo.orgId.val Demo.project.key Demo.projectId.val start where
  project := ⟨Demo.project, by decide, rfl⟩
  ranked := ⟨by decide, by decide, fun s => by cases s <;> decide⟩
  idle _ := rfl

def play (as : List (Bool × UserAct)) : BoardRoom Bool :=
  as.foldl (next Demo.orgId.val Demo.projectId.val) start

/-- Drop a card into the backlog. -/
def drop (id : JsString) (aboveId belowId : Option JsString) : UserAct :=
  .send (.move Demo.userId.val id ⟨.BACKLOG, aboveId, belowId⟩)

abbrev turn (second : Bool) : Bool × UserAct := (second, .run false (Demo.gen Demo.userId))

/-- Both clients look, send their drops and take turns up to the writes. -/
def drops (first second : UserAct) : List (Bool × UserAct) :=
  [(false, .look), (true, .look), (false, first), (true, second), turn false, turn true,
    turn false, turn true, turn false, turn true, turn false, turn true]

/-- `X` goes between `A` and `B`, `Y` above `A`. -/
def twoGaps : List (Bool × UserAct) :=
  drops (drop cardX (some Demo.cardA.val) (some Demo.cardB.val))
    (drop cardY none (some Demo.cardA.val))

/-- Both cards go between `A` and `B`. -/
def oneGap : List (Bool × UserAct) :=
  drops (drop cardX (some Demo.cardA.val) (some Demo.cardB.val))
    (drop cardY (some Demo.cardA.val) (some Demo.cardB.val))

end BoardRoom.Samples

open BoardRoom.Samples in
theorem distinctRanks_of_twoGaps : DistinctRanks Demo.projectId.val (play twoGaps).store.db :=
  distinctRanks_of_gapOpen start_ok
    (Along.guarded (show Along _ (BoardRoom.next _ _) start twoGaps by decide))

open BoardRoom.Samples in
/-- Two clients drop two cards into the gap between `A` and `B`, and both get the rank `c`. -/
theorem two_drops_in_one_gap :
    RoomStart Demo.orgId.val Demo.project.key Demo.projectId.val start ∧
      Run (Steps (BoardRoom.Enabled Demo.project.key)
        (BoardRoom.next Demo.orgId.val Demo.projectId.val)) start oneGap (play oneGap) ∧
      ¬DistinctRanks Demo.projectId.val (play oneGap).store.db := by
  refine ⟨start_ok, Along.run (by decide), fun h => ?_⟩
  exact absurd (h .BACKLOG) (by decide)

end PmSaas
