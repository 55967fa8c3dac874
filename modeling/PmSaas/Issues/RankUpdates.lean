import PmSaas.Issues.RankRaces

/-!
# Updates that change the column of a card

`create` and `move` compute a rank for the column a card goes into.  `update` writes a new status
and leaves the rank, which was computed among the cards of another column: two columns number their
cards independently, and both start at `firstRank`.

* `move_neighbours_ok`: in a column with distinct ranks no drop between adjacent cards is refused;
* `update_keeps_order_iff`: an update keeps the ranks distinct exactly when no other card of the
  target column has the rank of the updated one.
-/

namespace PmSaas

open SortBy Table IssuesService

/-- The 400 of `move` for neighbours that are the wrong way round. -/
def inconsistentNeighbours : Exn :=
  .badRequest (js "Invalid drop position (neighbour ranks inconsistent)")

/-- No drop between two adjacent cards of a column is refused for its neighbours. -/
def NeighboursAccepted (projectId : JsString) (w : World) : Prop :=
  ∀ (organizationId actorId issueId : JsString) (input : MoveIssueInput) (g : Gen)
    (above below : Issue), [above, below] <:+: w.db.column projectId input.status →
    input.aboveId = some above.id → input.belowId = some below.id →
    (move organizationId actorId issueId input g w).1 ≠ .error inconsistentNeighbours

/-- The ranks inside each column are distinct, and later drops find their neighbours in order. -/
structure OrderKept (projectId : JsString) (w : World) : Prop where
  distinct : DistinctRanks projectId w.db
  accepted : NeighboursAccepted projectId w

/-- No other card of the column has the rank of this one. -/
def RankFree (db : Db) (card : Issue) (status : IssueStatus) : Prop :=
  ∀ i ∈ db.columnRows card.projectId status, i.id ≠ card.id → i.rank ≠ card.rank

section Columns

variable {projectId : JsString} {db : Db}

/-- Distinct ranks, row by row. -/
theorem distinctRanks_iff (hids : UniqueKey Issue.id db.issues) :
    DistinctRanks projectId db ↔
      ∀ i ∈ db.issues, ∀ j ∈ db.issues, i.projectId = projectId → j.projectId = projectId →
        i.status = j.status → i.rank = j.rank → i = j := by
  have hrows : db.issues.Nodup := List.Nodup.of_map _ hids
  constructor
  · intro h i hi j hj hproj hproj' hstatus hrank
    exact (h i.status).eq_of_key_eq (mem_columnRows.2 ⟨hi, hproj, rfl⟩)
      (mem_columnRows.2 ⟨hj, hproj', hstatus.symm⟩) hrank
  · intro h s
    refine (List.nodup_map_iff_inj_on (hrows.filter _)).2 fun i hi j hj hrank => ?_
    obtain ⟨hi, hproj, hs⟩ := mem_columnRows.1 hi
    obtain ⟨hj, hproj', hs'⟩ := mem_columnRows.1 hj
    exact h i hi j hj hproj hproj' (hs.trans hs'.symm) hrank

theorem DistinctRanks.increasing (h : DistinctRanks projectId db) (s : IssueStatus) :
    Increasing Issue.rank (db.column projectId s) := by
  have hle : (db.column projectId s).Pairwise fun a b => a.rank ≤ b.rank := sortBy_pairwise _
  have hne : (db.column projectId s).Pairwise fun a b => a.rank ≠ b.rank :=
    List.pairwise_map.1 (((sortBy_perm _).map Issue.rank).nodup_iff.2 (h s))
  exact (hle.and hne).imp fun hab => lt_of_le_of_ne hab.1 hab.2

/-- Two adjacent cards have different ranks, the first the smaller one. -/
theorem DistinctRanks.adjacent (h : DistinctRanks projectId db) {s : IssueStatus}
    {above below : Issue} (hadj : [above, below] <:+: db.column projectId s) :
    above.rank < below.rank := by
  have hpair := (h.increasing s).sublist hadj.sublist
  simpa using hpair

/-- The rank a neighbour lookup answers is that of the row with the id. -/
theorem neighbourRank_of_row (hids : UniqueKey Issue.id db.issues) {card : Issue}
    (hcard : card ∈ db.issues) {projectId : JsString} {s : IssueStatus} :
    ∀ x ∈ db.neighbourRank projectId s (some card.id), x = card.rank := by
  intro x hx
  obtain ⟨id, hid, hrow⟩ := Option.bind_eq_some_iff.1 hx
  obtain ⟨i, hfind, rfl⟩ := Option.map_eq_some_iff.1 hrow
  obtain rfl : card.id = id := Option.some.inj (Option.eq_some_of_filter_eq_some hid)
  have hi := List.find?_some hfind
  simp only [Bool.and_eq_true, beq_iff_eq] at hi
  rw [hids.eq_of_key_eq (List.mem_of_find?_eq_some hfind) hcard hi.1.1]

end Columns

/-! ### Drops between two adjacent cards -/

theorem dropRank_sorted {above below : Option JsString}
    (h : ∀ x ∈ above, ∀ y ∈ below, x < y) : dropRank above below = .ok (rankMid above below) := by
  rw [dropRank, rankBetween_ok h]
  rfl

/-- **A drop between two adjacent cards finds them in order**, whatever card is dropped there. -/
theorem move_neighbours_ok {projectId : JsString} {w : World}
    (hids : UniqueKey Issue.id w.db.issues) (h : DistinctRanks projectId w.db) :
    NeighboursAccepted projectId w := by
  intro organizationId actorId issueId input g above below hadj habove hbelow
  have hlt := h.adjacent hadj
  obtain ⟨hmemAbove, -⟩ := mem_column.1 (hadj.subset (show above ∈ [above, below] by simp))
  obtain ⟨hmemBelow, -⟩ := mem_column.1 (hadj.subset (show below ∈ [above, below] by simp))
  have hdrop (p : JsString) : dropRank (w.db.neighbourRank p input.status input.aboveId)
      (w.db.neighbourRank p input.status input.belowId) =
        .ok (rankMid (w.db.neighbourRank p input.status input.aboveId)
          (w.db.neighbourRank p input.status input.belowId)) := by
    refine dropRank_sorted fun x hx y hy => ?_
    rw [habove] at hx
    rw [hbelow] at hy
    rw [neighbourRank_of_row hids hmemAbove x hx, neighbourRank_of_row hids hmemBelow y hy]
    exact hlt
  rw [move, Service.query_bind, Service.orThrow_bind]
  cases w.db.findIssue organizationId issueId with
  | none => simp [inconsistentNeighbours]
  | some issue =>
      simp only [Service.query_bind, Service.exec_bind, hdrop issue.projectId, Except.map]
      unfold Db.updateIssue
      simp only [Option.any_none, Bool.false_eq_true, if_false]
      cases w.db.issues.find? (·.id == issue.id) with
      | none => simp [inconsistentNeighbours]
      | some row =>
          simp only [Service.record_bind, Service.emit_bind]
          exact fun hno => by cases hno

/-! ### Updates -/

section Update

variable {projectId : JsString} {db : Db} {before : Issue}

/-- An update moves its card into the target column with the rank it had. -/
theorem distinct_update_iff (hids : UniqueKey Issue.id db.issues) (hbefore : before ∈ db.issues)
    (hdistinct : DistinctRanks projectId db) (input : UpdateIssueInput) (now : Date) :
    DistinctRanks projectId (db.rewriteIssue before.id (input.apply now)) ↔
      (before.projectId = projectId →
        RankFree db before (input.status.getD before.status)) := by
  have hids' : UniqueKey Issue.id (db.rewriteIssue before.id (input.apply now)).issues :=
    hids.update fun _ _ _ => rfl
  have hupdated : input.apply now before ∈
      (db.rewriteIssue before.id (input.apply now)).issues :=
    mem_updateWhere.2 ⟨before, hbefore, by simp⟩
  have hkept : ∀ i ∈ db.issues, i.id ≠ before.id →
      i ∈ (db.rewriteIssue before.id (input.apply now)).issues :=
    fun i hi hne => mem_updateWhere_of_not hi (by simpa using hne)
  rw [distinctRanks_iff hids']
  rw [distinctRanks_iff hids] at hdistinct
  constructor
  · intro h hproj i hi hne hrank
    obtain ⟨hi, hiproj, hstatus⟩ := mem_columnRows.1 hi
    have heq := h i (hkept i hi hne) _ hupdated (hiproj.trans hproj) hproj hstatus hrank
    exact hne (show i.id = (input.apply now before).id by rw [heq])
  · intro hfree i' hi' j' hj' hproj hproj' hstatus hrank
    obtain ⟨i, hi, rfl⟩ := mem_updateWhere.1 hi'
    obtain ⟨j, hj, rfl⟩ := mem_updateWhere.1 hj'
    by_cases hid : i.id = before.id
    · obtain rfl := hids.eq_of_key_eq hi hbefore hid
      by_cases hjd : j.id = i.id
      · rw [hids.eq_of_key_eq hj hi hjd]
      · simp only [beq_self_eq_true, if_true, beq_eq_false_iff_ne.2 hjd, Bool.false_eq_true,
          if_false] at hproj hproj' hstatus hrank ⊢
        have hmem : j ∈ db.columnRows i.projectId (input.status.getD i.status) :=
          mem_columnRows.2 ⟨hj, hproj'.trans hproj.symm, hstatus.symm⟩
        exact absurd hrank.symm (hfree hproj j hmem hjd)
    · by_cases hjd : j.id = before.id
      · obtain rfl := hids.eq_of_key_eq hj hbefore hjd
        simp only [beq_self_eq_true, if_true, beq_eq_false_iff_ne.2 hid, Bool.false_eq_true,
          if_false] at hproj hproj' hstatus hrank ⊢
        have hmem : i ∈ db.columnRows j.projectId (input.status.getD j.status) :=
          mem_columnRows.2 ⟨hi, hproj.trans hproj'.symm, hstatus⟩
        exact absurd hrank (hfree hproj' i hmem hid)
      · simp only [beq_eq_false_iff_ne.2 hid, beq_eq_false_iff_ne.2 hjd, Bool.false_eq_true,
          if_false] at hproj hproj' hstatus hrank ⊢
        exact hdistinct i hi j hj hproj hproj' hstatus hrank

end Update

/-- **Updates and the order of a column.**  In a project with distinct ranks inside each column, a
successful `update` keeps them distinct, and later drops between adjacent cards accepted, exactly
when no other card of the column it puts the issue into has the issue's rank. -/
theorem update_keeps_order_iff {organizationId actorId issueId projectId : JsString}
    {input : UpdateIssueInput} {g : Gen} {w w' : World} {before : Issue} {issue : IssueView}
    (hids : UniqueKey Issue.id w.db.issues)
    (hbefore : w.db.findIssue organizationId issueId = some before)
    (hupdate : update organizationId actorId issueId input g w = (.ok issue, w'))
    (hdistinct : DistinctRanks projectId w.db) :
    OrderKept projectId w' ↔
      (before.projectId = projectId →
        RankFree w.db before (input.status.getD before.status)) := by
  obtain ⟨e, herror⟩ | ⟨before', row, db, w'', hfind, hwrite, hok, hafter⟩ :=
    update_cases organizationId actorId issueId input g w
  · rw [herror] at hupdate
    cases hupdate
  · obtain rfl := Option.some.inj (hbefore.symm.trans hfind)
    rw [hok] at hupdate
    obtain rfl : w'' = w' := congrArg Prod.snd hupdate
    obtain ⟨hmem, rfl, -⟩ := Db.findIssue_some hbefore
    obtain ⟨-, -, -, rfl⟩ := Db.updateIssue_ok hwrite
    have hissues : w''.db.issues = (w.db.rewriteIssue before.id (input.apply g.now)).issues :=
      hafter.issues
    have hids' : UniqueKey Issue.id w''.db.issues := by
      rw [hissues]
      exact hids.update fun _ _ _ => rfl
    have hsame : DistinctRanks projectId w''.db ↔
        DistinctRanks projectId (w.db.rewriteIssue before.id (input.apply g.now)) := by
      simp only [DistinctRanks, Db.columnRows, hissues]
    rw [← distinct_update_iff hids hmem hdistinct input g.now, ← hsame]
    exact ⟨fun h => h.distinct, fun h => ⟨h, move_neighbours_ok hids' h⟩⟩

/-! ### Two columns that both begin with `V` -/

namespace RankUpdates.Samples

open Demo (firstId secondId thirdId)

def card (id : Cuid) (number : ℕ) (status : IssueStatus) (rank : JsString) : Issue :=
  newIssue Demo.orgId.val Demo.userId.val Demo.projectId.val
    { title := js "Task", status := status } (Demo.gen id) number rank

/-- The second card of the board. -/
def backlog : Issue := card secondId 2 .BACKLOG firstRank

/-- The card in `DONE` was the second of its column. -/
def world : World :=
  { Demo.world with db := { Demo.world.db with
      issues := [card firstId 1 .TODO firstRank, backlog, card thirdId 3 .DONE (js "k")] } }

/-- The status select of the issue modal. -/
def setStatus (status : IssueStatus) : UpdateIssueInput := { status := some status }

/-- The second card is put into another column. -/
def updated (status : IssueStatus) : Except Exn IssueView × World :=
  update Demo.orgId.val Demo.userId.val secondId.val (setStatus status) (Demo.gen thirdId) world

def moved (status : IssueStatus) : IssueView :=
  issueSelect ((setStatus status).apply 0 backlog)

theorem world_ids : UniqueKey Issue.id world.db.issues := by decide

theorem world_distinct : DistinctRanks Demo.projectId.val world.db := by
  unfold DistinctRanks
  decide

theorem world_backlog :
    world.db.findIssue Demo.orgId.val secondId.val = some backlog := by decide

theorem backlog_free : RankFree world.db backlog .DONE := by
  unfold RankFree
  decide

theorem updated_ok (status : IssueStatus) :
    updated status = (.ok (moved status), (updated status).2) := by
  revert status
  decide

end RankUpdates.Samples

open RankUpdates.Samples in
/-- Into a column whose card has another rank. -/
theorem update_keeps_order_done : OrderKept Demo.projectId.val (updated .DONE).2 :=
  (update_keeps_order_iff world_ids world_backlog (updated_ok .DONE) world_distinct).2
    fun _ => backlog_free

open RankUpdates.Samples in
/-- Into a column that begins with the same rank. -/
theorem update_breaks_order :
    ¬ ∀ (organizationId actorId issueId projectId : JsString) (input : UpdateIssueInput) (g : Gen)
      (w w' : World) (issue : IssueView), UniqueKey Issue.id w.db.issues →
      update organizationId actorId issueId input g w = (.ok issue, w') →
      DistinctRanks projectId w.db → OrderKept projectId w' := by
  intro hall
  have hkept := hall _ _ _ _ _ _ _ _ _ world_ids (updated_ok .TODO) world_distinct
  have hdistinct : UniqueKey Issue.rank ((updated .TODO).2.db.columnRows Demo.projectId.val .TODO) :=
    hkept.distinct .TODO
  exact absurd hdistinct (by decide)

end PmSaas
