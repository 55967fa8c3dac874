import PmSaas.Lib.TransitionSystem
import PmSaas.Issues.IssuesService

/-!
# The board: string-ranked rows refine plain lists of cards

A `Board` is what a project's board is for: in each status column, the cards in their order.
Creating appends a card at the bottom, moving takes it out and puts it between two named cards,
removing takes it out.  The service keeps no such lists; it writes one rank string on one row.

`BoardInv` ties the two together — every column of the project, listed by ascending rank, has
strictly increasing well-formed ranks and is the abstract column — and each service method on rows
simulates its operation on lists.  `boardRun_refines` carries this over whole runs.
-/

namespace PmSaas

open SortBy Table TransitionSystem IssuesService

/-- The cards of each column, top to bottom. -/
abbrev Board := IssueStatus → List JsString

namespace Board

def empty : Board := fun _ => []

/-- A new card at the bottom of its column. -/
def append (id : JsString) (status : IssueStatus) (b : Board) : Board :=
  fun s => if s = status then b s ++ [id] else b s

def remove (id : JsString) (b : Board) : Board := fun s => (b s).filter (· ≠ id)

/-- Put a card into a column right after `above`, or else right before `below`. -/
def insertBetween (above below : Option JsString) (id : JsString) (col : List JsString) :
    List JsString :=
  match above, below with
  | some a, _ => col.flatMap fun x => if x = a then [x, id] else [x]
  | none, some b => col.flatMap fun x => if x = b then [id, x] else [x]
  | none, none => id :: col

/-- Take a card out and put it between two cards of the target column. -/
def move (id : JsString) (status : IssueStatus) (above below : Option JsString) (b : Board) :
    Board :=
  fun s => if s = status then insertBetween above below id (b.remove id s) else b.remove id s

end Board

/-- `above` and `below` are the two cards at one drop point of the column; `none` is an edge. -/
def Adjacent (above below : Option JsString) (col : List JsString) : Prop :=
  ∃ pre post, col = pre ++ post ∧ pre.getLast? = above ∧ post.head? = below

/-- A one-card rewrite of a column in which that card occurs once. -/
theorem flatMap_at {a : JsString} {f : JsString → List JsString} (pre post : List JsString)
    (hf : ∀ x, x ≠ a → f x = [x]) (hpre : a ∉ pre) (hpost : a ∉ post) :
    (pre ++ a :: post).flatMap f = pre ++ f a ++ post := by
  have hsame : ∀ l : List JsString, a ∉ l → l.flatMap f = l := by
    intro l hl
    induction l with
    | nil => rfl
    | cons x l ih =>
        simp only [List.mem_cons, not_or] at hl
        rw [List.flatMap_cons, hf x (Ne.symm hl.1), ih hl.2]
        rfl
  rw [List.flatMap_append, List.flatMap_cons, hsame pre hpre, hsame post hpost,
    List.append_assoc]

/-- Between adjacent cards, `insertBetween` opens the column at the drop point. -/
theorem insertBetween_eq {above below : Option JsString} {id : JsString}
    {pre post : List JsString} (hnd : (pre ++ post).Nodup) (habove : pre.getLast? = above)
    (hbelow : post.head? = below) :
    Board.insertBetween above below id (pre ++ post) = pre ++ id :: post := by
  subst habove hbelow
  rcases List.eq_nil_or_concat pre with rfl | ⟨init, a, rfl⟩
  · cases post with
    | nil => rfl
    | cons b post =>
        have hb : b ∉ post := by simpa using (List.nodup_cons.1 (by simpa using hnd)).1
        have hflat := flatMap_at (f := fun x => if x = b then [id, x] else [x]) [] post
          (fun x hx => if_neg hx) (by simp) hb
        simpa [Board.insertBetween] using hflat
  · rw [List.concat_eq_append] at hnd ⊢
    have hmid : (init ++ a :: post).Nodup := by simpa using hnd
    rw [List.nodup_middle, List.nodup_cons, List.mem_append, not_or] at hmid
    have hflat := flatMap_at (f := fun x => if x = a then [x, id] else [x]) init post
      (fun x hx => if_neg hx) hmid.1.1 hmid.1.2
    simpa [Board.insertBetween, List.getLast?_append] using hflat

/-! ### The invariant -/

/-- The rows of one project represent the board. -/
structure BoardInv (organizationId projectKey projectId : JsString) (db : Db) (b : Board) :
    Prop where
  project : ∃ p, db.findProject organizationId projectKey = some p ∧ p.id = projectId
  ids : UniqueKey Issue.id db.issues
  owned : ∀ i ∈ db.issues, i.projectId = projectId → i.organizationId = organizationId
  named : ∀ i ∈ db.issues, i.projectId = projectId → i.id ≠ []
  ranked : ∀ i ∈ db.issues, i.projectId = projectId → WellFormedRank i.rank
  increasing : ∀ s, Increasing Issue.rank (db.column projectId s)
  cards : ∀ s, (db.column projectId s).map Issue.id = b s

theorem mem_columnRows {db : Db} {projectId : JsString} {s : IssueStatus} {i : Issue} :
    i ∈ db.columnRows projectId s ↔ i ∈ db.issues ∧ i.projectId = projectId ∧ i.status = s := by
  simp [Db.columnRows]

theorem mem_column {db : Db} {projectId : JsString} {s : IssueStatus} {i : Issue} :
    i ∈ db.column projectId s ↔ i ∈ db.issues ∧ i.projectId = projectId ∧ i.status = s := by
  rw [Db.column, mem_sortBy, mem_columnRows]

section Inv

variable {organizationId projectKey projectId : JsString} {db db' : Db} {b : Board}

/-- The invariant reads nothing but projects and issues. -/
theorem BoardInv.congr (h : BoardInv organizationId projectKey projectId db b)
    (hp : db'.projects = db.projects) (hi : db'.issues = db.issues) :
    BoardInv organizationId projectKey projectId db' b := by
  obtain ⟨p, hf, hid⟩ := h.project
  have hcol : ∀ s, db'.column projectId s = db.column projectId s := by
    intro s
    simp only [Db.column, Db.columnRows, hi]
  exact ⟨⟨p, by simpa only [Db.findProject, hp] using hf, hid⟩, hi ▸ h.ids, hi ▸ h.owned,
    hi ▸ h.named, hi ▸ h.ranked, fun s => hcol s ▸ h.increasing s, fun s => hcol s ▸ h.cards s⟩

theorem BoardInv.after {w w' : World} (h : BoardInv organizationId projectKey projectId w.db b)
    (ha : Aftermath organizationId w w') :
    BoardInv organizationId projectKey projectId w'.db b := by
  exact h.congr ha.projects ha.issues

theorem BoardInv.nodup (h : BoardInv organizationId projectKey projectId db b) (s : IssueStatus) :
    (b s).Nodup := by
  rw [← h.cards s]
  have hrows : ((db.columnRows projectId s).map Issue.id).Nodup :=
    h.ids.sublist (List.filter_sublist.map _)
  exact ((sortBy_perm _).map _).nodup_iff.2 hrows

/-- The column of the board without one card, as rows. -/
theorem BoardInv.remove_cards (h : BoardInv organizationId projectKey projectId db b)
    (s : IssueStatus) (id : JsString) :
    (((db.column projectId s).filter fun i => i.id != id).map Issue.id) = b.remove id s := by
  rw [Board.remove, ← h.cards s, List.filter_map]
  congr 2
  funext i
  by_cases hi : i.id = id <;> simp [hi]

/-- A neighbour named by its id has the rank of its row. -/
theorem BoardInv.neighbourRank (h : BoardInv organizationId projectKey projectId db b)
    {s : IssueStatus} {i : Option Issue} (hi : ∀ x ∈ i, x ∈ db.column projectId s) :
    db.neighbourRank projectId s (i.map Issue.id) = i.map Issue.rank := by
  cases i with
  | none => rfl
  | some i =>
      obtain ⟨hmem, hproj, hstat⟩ := mem_column.1 (hi i rfl)
      have htr : truthy (some i.id) = some i.id := by simp [truthy, h.named i hmem hproj]
      have hfind : (db.issues.find? fun j =>
          j.id == i.id && j.projectId == projectId && j.status == s) = some i := by
        refine h.ids.find?_eq hmem (by simp [hproj, hstat]) fun y _ hy => ?_
        simp only [Bool.and_eq_true, beq_iff_eq] at hy
        exact hy.1.1
      simp only [Option.map_some, Db.neighbourRank, htr, Option.bind_some, hfind]

/-! ### Each operation simulates its abstract counterpart -/

theorem appendRank_ok {last : Option Issue} {rank : JsString} (h : appendRank last = .ok rank)
    (hw : ∀ i ∈ last, WellFormedRank i.rank) :
    WellFormedRank rank ∧ ∀ i ∈ last, i.rank < rank := by
  cases last with
  | none =>
      cases h
      exact ⟨firstRank_wellFormed, by simp⟩
  | some i =>
      have hlower : ∀ x ∈ some i.rank, WellFormedRank x := by
        rintro _ ⟨⟩
        exact hw i rfl
      have hr : rankMid (some i.rank) none = rank := by
        have hok : rankBetween (some i.rank) none = .ok (rankMid (some i.rank) none) :=
          rankBetween_ok (by simp)
        simpa [appendRank, hok, Except.mapError] using h
      subst hr
      refine ⟨rankMid_wellFormed, ?_⟩
      rintro _ ⟨⟩
      exact lt_rankMid hlower i.rank rfl

/-- The rank of a new card comes after every rank of its column. -/
theorem appendRank_last {s : IssueStatus} {rank : JsString}
    (h : appendRank (db.lastInColumn projectId s) = .ok rank)
    (hw : ∀ i ∈ db.columnRows projectId s, WellFormedRank i.rank) :
    WellFormedRank rank ∧ ∀ j ∈ db.columnRows projectId s, j.rank < rank := by
  have hlast : ∀ i ∈ db.lastInColumn projectId s,
      i ∈ db.columnRows projectId s ∧ ∀ j ∈ db.columnRows projectId s, j.rank ≤ i.rank :=
    fun i hi => head?_sortBy_le hi
  obtain ⟨hwf, habove⟩ := appendRank_ok h fun i hi => hw i (hlast i hi).1
  refine ⟨hwf, fun j hj => ?_⟩
  cases hl : db.lastInColumn projectId s with
  | none =>
      rw [Db.lastInColumn, head?_sortBy_eq_none] at hl
      rw [hl] at hj
      cases hj
  | some i => exact lt_of_le_of_lt ((hlast i hl).2 j hj) (habove i hl)

theorem column_insertIssue {row : Issue} (labelIds : List JsString)
    (h : BoardInv organizationId projectKey projectId db b) (hproj : row.projectId = projectId)
    (hlast : ∀ j ∈ db.columnRows projectId row.status, j.rank < row.rank) (s : IssueStatus) :
    (db.insertIssue row labelIds).column projectId s =
        (if s = row.status then db.column projectId s ++ [row] else db.column projectId s) ∧
      Increasing Issue.rank ((db.insertIssue row labelIds).column projectId s) := by
  have hrows : (db.insertIssue row labelIds).columnRows projectId s =
      if s = row.status then db.columnRows projectId s ++ [row] else db.columnRows projectId s := by
    by_cases hs : s = row.status
    · simp [Db.columnRows, Db.insertIssue, hproj, hs]
    · simp [Db.columnRows, Db.insertIssue, hs, Ne.symm hs]
  rw [Db.column, hrows]
  by_cases hs : s = row.status
  · subst hs
    have hincr : Increasing Issue.rank (db.column projectId row.status ++ [row]) := by
      refine List.pairwise_append.2 ⟨h.increasing _, by simp, ?_⟩
      intro j hj r hr
      rw [List.mem_singleton.1 hr]
      exact hlast j (mem_sortBy.1 hj)
    have hsort := sortBy_eq hincr ((sortBy_perm _).append_right [row])
    simp only [if_true]
    exact ⟨hsort, hsort ▸ hincr⟩
  · simp only [if_neg hs]
    exact ⟨rfl, h.increasing s⟩

/-- A new row ranked above its whole column is a new card at its bottom. -/
theorem BoardInv.insertIssue {row : Issue} {labelIds : List JsString}
    (h : BoardInv organizationId projectKey projectId db b)
    (horg : row.organizationId = organizationId) (hproj : row.projectId = projectId)
    (hid : row.id ≠ []) (hfresh : ∀ i ∈ db.issues, i.id ≠ row.id) (hwf : WellFormedRank row.rank)
    (hlast : ∀ j ∈ db.columnRows projectId row.status, j.rank < row.rank) :
    BoardInv organizationId projectKey projectId (db.insertIssue row labelIds)
      (b.append row.id row.status) := by
  have hcol := column_insertIssue labelIds h hproj hlast
  have hmem : ∀ {i : Issue}, i ∈ (db.insertIssue row labelIds).issues → i ∈ db.issues ∨ i = row :=
    fun {i} hi => by simpa [Db.insertIssue] using hi
  refine ⟨h.project, h.ids.insert hfresh, ?_, ?_, ?_, fun s => (hcol s).2, ?_⟩
  · intro i hi hp
    rcases hmem hi with hi | rfl
    · exact h.owned i hi hp
    · exact horg
  · intro i hi hp
    rcases hmem hi with hi | rfl
    · exact h.named i hi hp
    · exact hid
  · intro i hi hp
    rcases hmem hi with hi | rfl
    · exact h.ranked i hi hp
    · exact hwf
  · intro s
    rw [(hcol s).1, Board.append]
    split
    · simp [h.cards]
    · exact h.cards s

/-- Handing out an issue number does not touch the board. -/
theorem BoardInv.bumpProject (h : BoardInv organizationId projectKey projectId db b) (now : Date) :
    BoardInv organizationId projectKey projectId (db.bumpProject projectId now) b := by
  obtain ⟨p, hfind, hpid⟩ := h.project
  have hfind' : (db.bumpProject projectId now).findProject organizationId projectKey =
      some (p.bump now) := by
    refine (find?_updateWhere (f := Project.bump now) fun _ _ _ => rfl).trans ?_
    unfold Db.findProject at hfind
    rw [hfind]
    simp [hpid]
  exact ⟨⟨p.bump now, hfind', hpid⟩, h.ids, h.owned, h.named, h.ranked, h.increasing, h.cards⟩

/-- `create` appends at the bottom of its column. -/
theorem BoardInv.create (h : BoardInv organizationId projectKey projectId db b)
    {actorId : JsString} {input : CreateIssueInput} {g : Gen} {issue : IssueView}
    (htx : db.createIssueTx organizationId actorId projectId input g = .ok (issue, db')) :
    BoardInv organizationId projectKey projectId db' (b.append issue.id input.status) ∧
      ∃ row, db'.issues = db.issues ++ [row] ∧ row.id = issue.id := by
  obtain ⟨project, rank, _, hrank, hins⟩ := Db.createIssueTx_ok htx
  obtain ⟨rfl, rfl, hfresh, _, _⟩ := Db.createIssue_ok hins
  generalize hnumber : project.issueCounter + 1 = number at hfresh ⊢
  obtain ⟨hwf, hbelow⟩ := appendRank_last hrank fun i hi =>
    h.ranked i (mem_columnRows.1 hi).1 (mem_columnRows.1 hi).2.1
  exact ⟨(h.bumpProject g.now).insertIssue rfl rfl (g.cuid 0).ne_nil hfresh hwf hbelow,
    newIssue organizationId actorId projectId input g number rank, rfl, rfl⟩

/-- `remove` takes its card out of the board. -/
theorem BoardInv.dropIssue (h : BoardInv organizationId projectKey projectId db b)
    (issueId : JsString) :
    BoardInv organizationId projectKey projectId (db.dropIssue issueId) (b.remove issueId) := by
  have hcol : ∀ s, (db.dropIssue issueId).column projectId s =
      (db.column projectId s).filter fun i => i.id != issueId := by
    intro s
    rw [Db.column, Db.column, ← sortBy_filter (h.increasing s)]
    simp only [Db.columnRows, Db.dropIssue, deleteWhere, List.filter_filter]
    congr 1
    refine List.filter_congr fun i _ => ?_
    rw [Bool.and_comm]
    rfl
  refine ⟨h.project, h.ids.delete _, ?_, ?_, ?_, ?_, ?_⟩
  · exact fun i hi hp => h.owned i (mem_deleteWhere.1 hi).1 hp
  · exact fun i hi hp => h.named i (mem_deleteWhere.1 hi).1 hp
  · exact fun i hi hp => h.ranked i (mem_deleteWhere.1 hi).1 hp
  · intro s
    rw [hcol s]
    exact (h.increasing s).sublist List.filter_sublist
  · intro s
    rw [hcol s]
    exact h.remove_cards s issueId

/-- The rows of a column after one card was re-ranked and put elsewhere. -/
theorem columnRows_place {issue : Issue} (hids : UniqueKey Issue.id db.issues)
    (hmem : issue ∈ db.issues) (hproj : issue.projectId = projectId) (status : IssueStatus)
    (rank : JsString) (now : Date) (s : IssueStatus) :
    ((db.rewriteIssue issue.id (place status rank now)).columnRows projectId s).Perm
      ((if s = status then [place status rank now issue] else []) ++
        (db.columnRows projectId s).filter fun i => i.id != issue.id) := by
  have hp := hids.filter_updateWhere_perm (f := place status rank now)
    (q := fun i => i.projectId == projectId && i.status == s) hmem
  by_cases hs : s = status
  · subst hs
    simpa [Db.columnRows, Db.rewriteIssue, place, hproj] using hp
  · simpa [Db.columnRows, Db.rewriteIssue, place, hproj, hs, Ne.symm hs] using hp

/-- The columns after one card was re-ranked between the two sides of a gap. -/
theorem column_place (h : BoardInv organizationId projectKey projectId db b) {issue : Issue}
    (hmem : issue ∈ db.issues) (hproj : issue.projectId = projectId) {status : IssueStatus}
    {pre post : List Issue} {rank : JsString} (now : Date)
    (hsplit : (db.column projectId status).filter (fun i => i.id != issue.id) = pre ++ post)
    (hpre : ∀ i ∈ pre, i.rank < rank) (hpost : ∀ i ∈ post, rank < i.rank) (s : IssueStatus) :
    (db.rewriteIssue issue.id (place status rank now)).column projectId s =
        (if s = status then pre ++ place status rank now issue :: post
        else (db.column projectId s).filter fun i => i.id != issue.id) ∧
      Increasing Issue.rank
        ((db.rewriteIssue issue.id (place status rank now)).column projectId s) := by
  have hrest : Increasing Issue.rank
      ((db.column projectId s).filter fun i => i.id != issue.id) :=
    (h.increasing s).sublist List.filter_sublist
  have hperm := (columnRows_place h.ids hmem hproj status rank now s).symm
  have hsort : ((db.column projectId s).filter fun i => i.id != issue.id).Perm
      ((db.columnRows projectId s).filter fun i => i.id != issue.id) :=
    (sortBy_perm _).filter _
  by_cases hs : s = status
  · subst hs
    have hincr : Increasing Issue.rank (pre ++ place s rank now issue :: post) :=
      increasing_insert (hsplit ▸ hrest) hpre hpost
    rw [if_pos rfl] at hperm ⊢
    rw [Db.column, sortBy_eq hincr
      ((List.perm_middle.trans ((hsplit ▸ hsort).cons (place s rank now issue))).trans hperm)]
    exact ⟨rfl, hincr⟩
  · rw [if_neg hs] at hperm ⊢
    rw [Db.column, sortBy_eq hrest (hsort.trans hperm)]
    exact ⟨rfl, hrest⟩

/-- A card re-ranked between the two sides of a gap moves into the gap. -/
theorem BoardInv.rewriteIssue (h : BoardInv organizationId projectKey projectId db b) {issue : Issue}
    (hmem : issue ∈ db.issues) (hproj : issue.projectId = projectId) {status : IssueStatus}
    {pre post : List Issue} {rank : JsString} (hwf : WellFormedRank rank) (now : Date)
    (hsplit : (db.column projectId status).filter (fun i => i.id != issue.id) = pre ++ post)
    (hpre : ∀ i ∈ pre, i.rank < rank) (hpost : ∀ i ∈ post, rank < i.rank) :
    BoardInv organizationId projectKey projectId
      (db.rewriteIssue issue.id (place status rank now))
      (b.move issue.id status (pre.getLast?.map Issue.id) (post.head?.map Issue.id)) := by
  have hcol := column_place h hmem hproj now hsplit hpre hpost
  have hupd : ∀ {i : Issue}, i ∈ (db.rewriteIssue issue.id (place status rank now)).issues →
      ∃ j ∈ db.issues, i = j ∨ i = place status rank now j := by
    intro i hi
    obtain ⟨j, hj, rfl⟩ := mem_updateWhere.1 hi
    refine ⟨j, hj, ?_⟩
    split
    · exact .inr rfl
    · exact .inl rfl
  refine ⟨h.project, h.ids.update fun _ _ _ => rfl, ?_, ?_, ?_, fun s => (hcol s).2, ?_⟩
  · intro i hi hp
    obtain ⟨j, hj, rfl | rfl⟩ := hupd hi
    · exact h.owned i hj hp
    · exact h.owned j hj hp
  · intro i hi hp
    obtain ⟨j, hj, rfl | rfl⟩ := hupd hi
    · exact h.named i hj hp
    · exact h.named j hj hp
  · intro i hi hp
    obtain ⟨j, hj, rfl | rfl⟩ := hupd hi
    · exact h.ranked i hj hp
    · exact hwf
  · intro s
    rw [(hcol s).1, Board.move]
    by_cases hs : s = status
    · subst hs
      have hids : b.remove issue.id s = pre.map Issue.id ++ post.map Issue.id := by
        rw [← h.remove_cards, hsplit, List.map_append]
      have hnd : (pre.map Issue.id ++ post.map Issue.id).Nodup :=
        hids ▸ (h.nodup s).sublist List.filter_sublist
      rw [if_pos rfl, if_pos rfl, hids,
        insertBetween_eq hnd List.getLast?_map List.head?_map, List.map_append, List.map_cons]
      rfl
    · rw [if_neg hs, if_neg hs]
      exact h.remove_cards s issue.id

/-- The rows on the two sides of a drop point, and the ranks that `move` reads there. -/
theorem BoardInv.gap (h : BoardInv organizationId projectKey projectId db b) {s : IssueStatus}
    {id : JsString} {aboveId belowId : Option JsString}
    (hadj : Adjacent aboveId belowId (b.remove id s)) :
    ∃ pre post, (db.column projectId s).filter (fun i => i.id != id) = pre ++ post ∧
      pre.getLast?.map Issue.id = aboveId ∧ post.head?.map Issue.id = belowId ∧
      db.neighbourRank projectId s aboveId = pre.getLast?.map Issue.rank ∧
      db.neighbourRank projectId s belowId = post.head?.map Issue.rank := by
  obtain ⟨preIds, postIds, hcards, habove, hbelow⟩ := hadj
  rw [← h.remove_cards, List.map_eq_append_iff] at hcards
  obtain ⟨pre, post, hsplit, rfl, rfl⟩ := hcards
  rw [List.getLast?_map] at habove
  rw [List.head?_map] at hbelow
  have hrow : ∀ i ∈ pre ++ post, i ∈ db.column projectId s := fun i hi =>
    List.mem_of_mem_filter (hsplit ▸ hi)
  refine ⟨pre, post, hsplit, habove, hbelow, ?_, ?_⟩
  · rw [← habove]
    exact h.neighbourRank fun x hx => hrow x (List.mem_append_left _ (List.mem_of_getLast? hx))
  · rw [← hbelow]
    exact h.neighbourRank fun x hx => hrow x (List.mem_append_right _ (List.mem_of_mem_head? hx))

/-- A drop between two adjacent cards finds a rank, and `move` puts its card between them. -/
theorem BoardInv.move (h : BoardInv organizationId projectKey projectId db b) {issue : Issue}
    {input : MoveIssueInput} (hmem : issue ∈ db.issues) (hproj : issue.projectId = projectId)
    (hadj : Adjacent input.aboveId input.belowId (b.remove issue.id input.status)) :
    ∃ rank, dropRank (db.neighbourRank projectId input.status input.aboveId)
        (db.neighbourRank projectId input.status input.belowId) = .ok rank ∧
      ∀ now, BoardInv organizationId projectKey projectId
        (db.rewriteIssue issue.id (place input.status rank now))
        (b.move issue.id input.status input.aboveId input.belowId) := by
  obtain ⟨pre, post, hsplit, habove, hbelow, hA, hB⟩ := h.gap hadj
  have hincr : Increasing Issue.rank (pre ++ post) :=
    hsplit ▸ (h.increasing input.status).sublist List.filter_sublist
  have hrow : ∀ i ∈ pre ++ post, i ∈ db.column projectId input.status := fun i hi =>
    List.mem_of_mem_filter (hsplit ▸ hi)
  have hwf : ∀ i ∈ pre ++ post, WellFormedRank i.rank := fun i hi =>
    h.ranked i (mem_column.1 (hrow i hi)).1 (mem_column.1 (hrow i hi)).2.1
  have hlower : ∀ x ∈ pre.getLast?.map Issue.rank, WellFormedRank x := by
    intro x hx
    obtain ⟨i, hi, rfl⟩ := Option.mem_map.1 hx
    exact hwf i (List.mem_append_left _ (List.mem_of_getLast? hi))
  have hupper : ∀ y ∈ post.head?.map Issue.rank, WellFormedRank y := by
    intro y hy
    obtain ⟨i, hi, rfl⟩ := Option.mem_map.1 hy
    exact hwf i (List.mem_append_right _ (List.mem_of_mem_head? hi))
  have hsorted : ∀ x ∈ pre.getLast?.map Issue.rank, ∀ y ∈ post.head?.map Issue.rank, x < y := by
    intro x hx y hy
    obtain ⟨i, hi, rfl⟩ := Option.mem_map.1 hx
    obtain ⟨j, hj, rfl⟩ := Option.mem_map.1 hy
    exact lt_across_gap hincr hi hj
  rw [hA, hB, dropRank, rankBetween_ok hsorted, ← habove, ← hbelow]
  refine ⟨_, rfl, fun now => h.rewriteIssue hmem hproj rankMid_wellFormed now hsplit ?_ ?_⟩
  · refine lt_of_getLast? (List.pairwise_append.1 hincr).1 fun i hi => ?_
    exact lt_rankMid hlower i.rank (Option.mem_map_of_mem _ hi)
  · refine lt_of_head? (List.pairwise_append.1 hincr).2.1 fun i hi => ?_
    exact rankMid_lt ⟨hlower, hupper, hsorted⟩ i.rank (Option.mem_map_of_mem _ hi)

end Inv

/-! ### Runs -/

/-- The calls that change the board of one project. -/
inductive BoardCall where
  | create (actorId : JsString) (input : CreateIssueInput) (g : Gen)
  | move (actorId issueId : JsString) (input : MoveIssueInput) (g : Gen)
  | remove (actorId issueId : JsString) (g : Gen)

namespace BoardCall

/-- The service call; `create` answers the new card's id. -/
def exec (organizationId projectKey : JsString) : BoardCall → Service (Option JsString)
  | .create actorId input g => do
      let issue ← IssuesService.create organizationId actorId projectKey input g
      pure (some issue.id)
  | .move actorId issueId input g => do
      let _ ← IssuesService.move organizationId actorId issueId input g
      pure none
  | .remove actorId issueId g => do
      IssuesService.remove organizationId actorId issueId g
      pure none

/-- What the call does to the lists of cards.  A `create` that was refused does nothing. -/
def onBoard : BoardCall → Except Exn (Option JsString) → Board → Board
  | .create _ input _, .ok (some id), b => b.append id input.status
  | .create _ _ _, _, b => b
  | .move _ issueId input _, _, b => b.move issueId input.status input.aboveId input.belowId
  | .remove _ issueId _, _, b => b.remove issueId

/-- A move takes a card of the board and names the two cards at the drop point. -/
def Admissible : BoardCall → Board → Prop
  | .move _ issueId input _, b =>
      (∃ s, issueId ∈ b s) ∧ Adjacent input.aboveId input.belowId (b.remove issueId input.status)
  | _, _ => True

/-- The card a call is about. -/
def target : BoardCall → Option JsString
  | .create _ _ _ => none
  | .move _ issueId _ _ => some issueId
  | .remove _ issueId _ => some issueId

end BoardCall

/-- One call on the rows beside its counterpart on the lists. -/
def BoardStep (organizationId projectKey : JsString) (s : World × Board) (call : BoardCall)
    (t : World × Board) : Prop :=
  call.Admissible s.2 ∧ t.1 = (call.exec organizationId projectKey s.1).2 ∧
    t.2 = call.onBoard (call.exec organizationId projectKey s.1).1 s.2

section Runs

variable {organizationId projectKey projectId : JsString} {w : World} {b : Board}

/-- A card of the board is found by its id. -/
theorem BoardInv.findIssue (h : BoardInv organizationId projectKey projectId w.db b)
    {s : IssueStatus} {issueId : JsString} (hcard : issueId ∈ b s) :
    ∃ issue, w.db.findIssue organizationId issueId = some issue ∧ issue ∈ w.db.issues ∧
      issue.id = issueId ∧ issue.projectId = projectId := by
  rw [← h.cards s, List.mem_map] at hcard
  obtain ⟨issue, hcol, rfl⟩ := hcard
  obtain ⟨hmem, hproj, _⟩ := mem_column.1 hcol
  refine ⟨issue, ?_, hmem, rfl, hproj⟩
  refine h.ids.find?_eq hmem (by simp [h.owned issue hmem hproj]) fun y _ hy => ?_
  simp only [Bool.and_eq_true, beq_iff_eq] at hy
  exact hy.1

/-- An id the tenant does not have is on no column. -/
theorem BoardInv.remove_eq (h : BoardInv organizationId projectKey projectId w.db b)
    {issueId : JsString} (hnone : w.db.findIssue organizationId issueId = none) :
    b.remove issueId = b := by
  funext s
  refine List.filter_eq_self.2 fun id hid => ?_
  by_contra hne
  obtain rfl : id = issueId := by simpa using hne
  obtain ⟨issue, hfind, _⟩ := h.findIssue hid
  rw [hnone] at hfind
  cases hfind

theorem mem_rewriteIssue {db : Db} {issueId : JsString} {f : Issue → Issue} {i : Issue}
    (hi : i ∈ db.issues) (hne : i.id ≠ issueId) : i ∈ (db.rewriteIssue issueId f).issues :=
  mem_updateWhere_of_not hi (by simpa using hne)

theorem mem_dropIssue {db : Db} {issueId : JsString} {i : Issue} (hi : i ∈ db.issues)
    (hne : i.id ≠ issueId) : i ∈ (db.dropIssue issueId).issues :=
  mem_deleteWhere.2 ⟨hi, by simpa using hne⟩

/-- An admissible move succeeds and simulates the move on lists. -/
theorem BoardInv.move_exec (h : BoardInv organizationId projectKey projectId w.db b)
    (actorId issueId : JsString) {input : MoveIssueInput} (g : Gen)
    (hadm : (BoardCall.move actorId issueId input g).Admissible b) :
    ∃ moved w', IssuesService.move organizationId actorId issueId input g w = (.ok moved, w') ∧
      BoardInv organizationId projectKey projectId w'.db
        (b.move issueId input.status input.aboveId input.belowId) ∧
      ∀ i ∈ w.db.issues, i.id ≠ issueId → i ∈ w'.db.issues := by
  obtain ⟨⟨s, hcard⟩, hadj⟩ := hadm
  obtain ⟨issue, hfind, hmem, rfl, hproj⟩ := h.findIssue hcard
  obtain ⟨rank, hrank, hinv⟩ := h.move hmem hproj hadj
  have hrow : w.db.issues.find? (·.id == issue.id) = some issue :=
    h.ids.find?_eq hmem (by simp) fun y _ hy => by simpa using hy
  obtain ⟨w', hexec, hafter⟩ := move_ok actorId hfind (hproj ▸ hrank)
    (Db.updateIssue_of_find (place input.status rank g.now) hrow)
  refine ⟨_, w', hexec, (hinv g.now).after hafter, fun i hi hne => ?_⟩
  rw [hafter.issues]
  exact mem_rewriteIssue hi hne

/-- A creation that goes through appends its card; one that is refused changes nothing. -/
theorem BoardInv.create_exec (h : BoardInv organizationId projectKey projectId w.db b)
    (actorId : JsString) (input : CreateIssueInput) (g : Gen) :
    (∃ e, IssuesService.create organizationId actorId projectKey input g w = (.error e, w)) ∨
    ∃ issue w', IssuesService.create organizationId actorId projectKey input g w =
        (.ok issue, w') ∧
      BoardInv organizationId projectKey projectId w'.db (b.append issue.id input.status) ∧
      ∀ i ∈ w.db.issues, i ∈ w'.db.issues := by
  rcases create_cases organizationId actorId projectKey input g w with
    herr | ⟨project, issue, db, w', hproj, htx, hexec, hafter⟩
  · exact .inl herr
  · right
    obtain ⟨p, hp, rfl⟩ := h.project
    obtain rfl : p = project := Option.some.inj (hp.symm.trans hproj)
    obtain ⟨hinv, row, hrows, _⟩ := h.create htx
    refine ⟨issue, w', hexec, hinv.after hafter, fun i hi => ?_⟩
    rw [hafter.issues, hrows]
    exact List.mem_append_left _ hi

/-- A removal takes its card off the board; one that is refused concerns no card of it. -/
theorem BoardInv.remove_exec (h : BoardInv organizationId projectKey projectId w.db b)
    (actorId issueId : JsString) (g : Gen) :
    BoardInv organizationId projectKey projectId
        (IssuesService.remove organizationId actorId issueId g w).2.db (b.remove issueId) ∧
      ∀ i ∈ w.db.issues, i.id ≠ issueId →
        i ∈ (IssuesService.remove organizationId actorId issueId g w).2.db.issues := by
  rcases remove_cases organizationId actorId issueId g w with
    ⟨e, hnone, hexec⟩ | ⟨issue, db, w', hfind, hdel, hexec, hafter⟩
  · rw [hexec, h.remove_eq hnone]
    exact ⟨h, fun i hi _ => hi⟩
  · obtain ⟨_, rfl, _⟩ := Db.findIssue_some hfind
    obtain rfl := Db.deleteIssue_ok hdel
    rw [hexec]
    refine ⟨(h.dropIssue issue.id).after hafter, fun i hi hne => ?_⟩
    rw [hafter.issues]
    exact mem_dropIssue hi hne

/-- **One call on the rows simulates its counterpart on the lists**, and touches no other card. -/
theorem BoardInv.exec (h : BoardInv organizationId projectKey projectId w.db b) (call : BoardCall)
    (hadm : call.Admissible b) :
    BoardInv organizationId projectKey projectId (call.exec organizationId projectKey w).2.db
        (call.onBoard (call.exec organizationId projectKey w).1 b) ∧
      ∀ i ∈ w.db.issues, some i.id ≠ call.target →
        i ∈ (call.exec organizationId projectKey w).2.db.issues := by
  cases call with
  | create actorId input g =>
      rw [BoardCall.exec, Service.bind_apply]
      rcases h.create_exec actorId input g with ⟨e, hexec⟩ | ⟨issue, w', hexec, hinv, hframe⟩
      · rw [hexec]
        exact ⟨h, fun i hi _ => hi⟩
      · rw [hexec]
        exact ⟨hinv, fun i hi _ => hframe i hi⟩
  | move actorId issueId input g =>
      rw [BoardCall.exec, Service.bind_apply]
      obtain ⟨moved, w', hexec, hinv, hframe⟩ := h.move_exec actorId issueId g hadm
      rw [hexec]
      exact ⟨hinv, fun i hi hne => hframe i hi fun heq => hne (congrArg some heq)⟩
  | remove actorId issueId g =>
      rw [BoardCall.exec, Service.bind_apply]
      obtain ⟨hinv, hframe⟩ := h.remove_exec actorId issueId g
      revert hinv hframe
      cases IssuesService.remove organizationId actorId issueId g w with
      | mk r w' =>
          intro hinv hframe
          cases r with
          | error e => exact ⟨hinv, fun i hi hne => hframe i hi fun heq => hne (congrArg some heq)⟩
          | ok u => exact ⟨hinv, fun i hi hne => hframe i hi fun heq => hne (congrArg some heq)⟩

/-- An empty project is an empty board. -/
theorem boardInv_empty {project : Project}
    (hproject : w.db.findProject organizationId projectKey = some project)
    (hids : UniqueKey Issue.id w.db.issues)
    (hempty : ∀ i ∈ w.db.issues, i.projectId ≠ project.id) :
    BoardInv organizationId projectKey project.id w.db Board.empty := by
  have hcol : ∀ s, w.db.column project.id s = [] := by
    intro s
    refine List.eq_nil_iff_forall_not_mem.2 fun i hi => ?_
    exact hempty i (mem_column.1 hi).1 (mem_column.1 hi).2.1
  exact ⟨⟨project, hproject, rfl⟩, hids, fun i hi hp => absurd hp (hempty i hi),
    fun i hi hp => absurd hp (hempty i hi), fun i hi hp => absurd hp (hempty i hi),
    fun s => (hcol s).symm ▸ List.Pairwise.nil, fun s => by rw [hcol s]; rfl⟩

/-- **String-ranked rows refine lists of cards.**  Whatever calls ran on an initially empty
project, every column listed by rank is the abstract column with strictly increasing ranks; every
admissible move succeeds, and no call touches a card other than its own. -/
theorem boardRun_refines (project : Project) {w₀ : World} {calls : List BoardCall}
    (hproject : w₀.db.findProject organizationId projectKey = some project)
    (hids : UniqueKey Issue.id w₀.db.issues)
    (hempty : ∀ i ∈ w₀.db.issues, i.projectId ≠ project.id)
    (hrun : Run (BoardStep organizationId projectKey) (w₀, Board.empty) calls (w, b)) :
    (∀ s, (w.db.column project.id s).map Issue.id = b s ∧
      Increasing Issue.rank (w.db.column project.id s)) ∧
    (∀ actorId issueId input g, (BoardCall.move actorId issueId input g).Admissible b →
      ∃ moved, (IssuesService.move organizationId actorId issueId input g w).1 = .ok moved) ∧
    ∀ call : BoardCall, call.Admissible b → ∀ i ∈ w.db.issues, some i.id ≠ call.target →
      i ∈ (call.exec organizationId projectKey w).2.db.issues := by
  have hinv : BoardInv organizationId projectKey project.id w.db b := by
    refine hrun.invariant
      (P := fun s => BoardInv organizationId projectKey project.id s.1.db s.2) ?_
      (boardInv_empty hproject hids hempty)
    rintro ⟨w, b⟩ call ⟨w', b'⟩ hinv ⟨hadm, hw, hb⟩
    subst hw hb
    exact (hinv.exec call hadm).1
  refine ⟨fun s => ⟨hinv.cards s, hinv.increasing s⟩, ?_, fun call hadm => (hinv.exec call hadm).2⟩
  intro actorId issueId input g hadm
  obtain ⟨moved, w', hexec, _⟩ := hinv.move_exec actorId issueId g hadm
  exact ⟨moved, by rw [hexec]⟩

end Runs

/-! ### A run: two cards, then the lower one moved above the other -/

namespace Demo

def cardA : Cuid := ⟨js "ca", by decide⟩
def cardB : Cuid := ⟨js "cb", by decide⟩

/-- Every generated id of the call is `id`. -/
def gen (id : Cuid) : Gen := ⟨0, fun _ => id, fun _ => []⟩

def newCard (title : JsString) : CreateIssueInput :=
  ⟨title, none, .BACKLOG, .NONE, none, none, []⟩

def createA : BoardCall := .create userId.val (newCard (js "A")) (gen cardA)
def createB : BoardCall := .create userId.val (newCard (js "B")) (gen cardB)

/-- Drop `B` at the top of the column, above `A`. -/
def moveB : BoardCall :=
  .move userId.val cardB.val ⟨.BACKLOG, none, some cardA.val⟩ (gen userId)

def next (s : World × Board) (call : BoardCall) : World × Board :=
  ((call.exec orgId.val project.key s.1).2,
    call.onBoard (call.exec orgId.val project.key s.1).1 s.2)

end Demo

open Demo in
theorem boardRun_refines_demo :
    ((next (next (next (world, Board.empty) createA) createB) moveB).1.db.column project.id
      .BACKLOG).map Issue.id = [cardB.val, cardA.val] := by
  have hrun : Run (BoardStep orgId.val project.key) (world, Board.empty)
      [createA, createB, moveB] (next (next (next (world, Board.empty) createA) createB) moveB) := by
    refine ((Run.nil.snoc (a := createA) ⟨trivial, rfl, rfl⟩).snoc (a := createB)
      ⟨trivial, rfl, rfl⟩).snoc (a := moveB) ⟨⟨⟨.BACKLOG, by decide⟩, [], [cardA.val], ?_⟩, rfl, rfl⟩
    decide
  have hrefines := boardRun_refines project (by decide) (by decide) (by decide) hrun
  refine (hrefines.1 .BACKLOG).1.trans ?_
  decide

end PmSaas
