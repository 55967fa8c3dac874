import PmSaas.Realtime.BoardPage

/-!
# Events that a snapshot already reflects

A client that loads the list of issues and is then handed old events again applies them to newer
data.  Requests are served one at a time here, and the events start anywhere before the snapshot:

* `reflects_served` — the events of a history, applied to the rows at its end, leave them;
* `synced_served` — applied to the rows at its start, they lead to the rows at its end;
* `patchAll_converges` — a snapshot, patched with all events from before it to the end, has
  the issues of the final database.
-/

namespace PmSaas

open Replay Table

/-- The handlers of `useBoardRealtime`, event after event. -/
def patchAll (events : List IssueEvent) (l : List IssueView) : List IssueView :=
  events.foldl (fun l event => patch event l) l

/-- Requests served one after another. -/
def BoardVisit.serves (v : BoardVisit) (requests : List (IssueRequest × Gen)) (w : World) : World :=
  requests.foldl (fun w r => v.serve r.1 r.2 w) w

theorem patchAll_uniqueKey (events : List IssueEvent) {l : List IssueView}
    (h : UniqueKey IssueView.id l) : UniqueKey IssueView.id (patchAll events l) := by
  induction events generalizing l with
  | nil => exact h
  | cons event events ih => exact ih (patch_uniqueKey event h)

theorem IssueLens.row_patchAll {lens : IssueLens} {id : JsString} (events : List IssueEvent)
    (l : List IssueView) :
    lens.row (patchAll events l) id = replay setPlace (lens.row l id) (lens.changes id events) := by
  induction events generalizing l with
  | nil => rfl
  | cons event events ih =>
      have hcons : lens.changes id (event :: events) =
          lens.changes id [event] ++ lens.changes id events :=
        lens.changes_append [event] events
      rw [hcons, replay_append, ← row_patch]
      exact ih (patch event l)

namespace BoardVisit

variable {v : BoardVisit} {w : World}

theorem serves_append (requests requests' : List (IssueRequest × Gen)) (w : World) :
    v.serves (requests ++ requests') w = v.serves requests' (v.serves requests w) :=
  List.foldl_append

/-! ### What was sent -/

theorem serve_broadcasts (request : IssueRequest) (g : Gen) (w : World) :
    w.broadcasts <+: (v.serve request g w).broadcasts := by
  rcases @IssueTask.serve_cases v.organizationId g request w with
    hsame | ⟨a, db, id, now, _, hserve⟩
  · rw [serve, hsame]
  · rw [serve, hserve, IssueTask.announced_broadcasts]
    exact List.prefix_append ..

theorem serves_broadcasts (requests : List (IssueRequest × Gen)) (w : World) :
    w.broadcasts <+: (v.serves requests w).broadcasts := by
  induction requests generalizing w with
  | nil => exact List.prefix_rfl
  | cons r requests ih => exact (serve_broadcasts r.1 r.2 w).trans (ih _)

/-- What was sent, first up to a world in between and then from there on. -/
theorem roomEvents_trans {w' w'' : World} (h : w.broadcasts <+: w'.broadcasts)
    (h' : w'.broadcasts <+: w''.broadcasts) :
    v.roomEvents w w'' = v.roomEvents w w' ++ v.roomEvents w' w'' := by
  obtain ⟨sent, hsent⟩ := h
  obtain ⟨sent', hsent'⟩ := h'
  simp only [roomEvents, ← hsent', ← hsent, List.append_assoc, List.drop_left, List.filter_append,
    List.map_append]
  rw [← List.append_assoc, List.drop_left]

theorem roomEvents_self (w : World) : v.roomEvents w w = [] := by
  rw [roomEvents, List.drop_length]
  rfl

theorem roomEvents_serves_append (requests requests' : List (IssueRequest × Gen)) (w : World) :
    v.roomEvents w (v.serves (requests ++ requests') w) =
      v.roomEvents w (v.serves requests w) ++
        v.roomEvents (v.serves requests w) (v.serves requests' (v.serves requests w)) := by
  rw [serves_append]
  exact roomEvents_trans (serves_broadcasts requests w) (serves_broadcasts requests' _)

theorem serves_snoc (requests : List (IssueRequest × Gen)) (r : IssueRequest × Gen) (w : World) :
    v.serves (requests ++ [r]) w = v.serve r.1 r.2 (v.serves requests w) :=
  serves_append ..

theorem roomEvents_snoc (requests : List (IssueRequest × Gen)) (r : IssueRequest × Gen)
    (w : World) :
    v.roomEvents w (v.serves (requests ++ [r]) w) =
      v.roomEvents w (v.serves requests w) ++
        v.roomEvents (v.serves requests w) (v.serve r.1 r.2 (v.serves requests w)) :=
  roomEvents_serves_append ..

/-! ### One issue along a history -/

theorem serves_sound (h : TenantSound w.db) (requests : List (IssueRequest × Gen)) :
    TenantSound (v.serves requests w).db := by
  induction requests generalizing w with
  | nil => exact h
  | cons r requests ih => exact ih (v.serve_spec r.1 r.2 h).1.sound

/-- A request leaves the row of an issue and says nothing of it, or it makes the change that it
announces. -/
theorem serve_row (h : TenantSound w.db) (request : IssueRequest) (g : Gen) (id : JsString) :
    (IssueLens.shown.changes id (v.roomEvents w (v.serve request g w)) = [] ∧
        IssueLens.shown.row ((v.serve request g w).db.boardList v.projectId) id =
          IssueLens.shown.row (w.db.boardList v.projectId) id) ∨
      ∃ c, IssueLens.shown.changes id (v.roomEvents w (v.serve request g w)) = [c] ∧
        c.Applies (IssueLens.shown.row (w.db.boardList v.projectId) id) ∧
        IssueLens.shown.row ((v.serve request g w).db.boardList v.projectId) id =
          c.apply setPlace (IssueLens.shown.row (w.db.boardList v.projectId) id) := by
  rcases (v.serve_spec request g h).2 with ⟨hnone, hboard⟩ | ⟨a, db, hcommit, hproject, hev, hboard⟩
  · rw [hnone, hboard]
    exact .inl ⟨rfl, rfl⟩
  · rw [hev, hboard, ← hproject]
    rcases IssueLens.shown.commit_cases hcommit h id with hother | ⟨c, hc, hchange⟩
    · exact .inl hother
    · exact .inr ⟨c, hc, hchange trivial⟩

/-- **A history changes nothing of the rows it ends with.** -/
theorem reflects_served (h : TenantSound w.db) (requests : List (IssueRequest × Gen))
    (id : JsString) :
    Reflects setPlace (IssueLens.shown.row ((v.serves requests w).db.boardList v.projectId) id)
      (IssueLens.shown.changes id (v.roomEvents w (v.serves requests w))) := by
  induction requests using List.reverseRecOn with
  | nil =>
      rw [show v.serves [] w = w from rfl, roomEvents_self]
      exact reflects_nil _
  | append_singleton requests r ih =>
      rw [roomEvents_snoc, IssueLens.changes_append, serves_snoc]
      rcases serve_row (v := v) (serves_sound h requests) r.1 r.2 id with
        ⟨hnone, hrow⟩ | ⟨c, hc, happlies, hrow⟩
      · rw [hnone, hrow, List.append_nil]
        exact ih
      · rw [hc, hrow]
        exact ih.change setPlace_overwrites happlies

/-- A history leads from the rows it starts with to the rows it ends with. -/
theorem synced_served (h : TenantSound w.db) (requests : List (IssueRequest × Gen))
    (id : JsString) :
    Synced setPlace (IssueLens.shown.row ((v.serves requests w).db.boardList v.projectId) id)
      (IssueLens.shown.row (w.db.boardList v.projectId) id)
      (IssueLens.shown.changes id (v.roomEvents w (v.serves requests w))) := by
  induction requests using List.reverseRecOn with
  | nil =>
      rw [show v.serves [] w = w from rfl, roomEvents_self]
      rfl
  | append_singleton requests r ih =>
      rw [roomEvents_snoc, IssueLens.changes_append, serves_snoc]
      rcases serve_row (v := v) (serves_sound h requests) r.1 r.2 id with
        ⟨hnone, hrow⟩ | ⟨c, hc, _, hrow⟩
      · rw [hnone, hrow, List.append_nil]
        exact ih
      · rw [hc, hrow]
        exact ih.change c

end BoardVisit

/-! ### A snapshot and the events around it -/

/-- **Old events do no harm.**  The requests `before`, `between` and `after` are served one at a
time, and `snapshot` is the list of issues after `between`.  Patched with every event emitted since
`before`, it has no id twice and shows exactly the issues of the final database: every column but
`updatedAt`, which no event of a move carries. -/
theorem patchAll_converges {v : BoardVisit} {w : World} (h : TenantSound w.db)
    (before between after : List (IssueRequest × Gen)) {snapshot : List IssueView}
    (hsnapshot : snapshot.Perm ((v.serves (before ++ between) w).db.boardList v.projectId)) :
    let final := v.serves (before ++ between ++ after) w
    let patched := patchAll (v.roomEvents (v.serves before w) final) snapshot
    UniqueKey IssueView.id patched ∧
      (patched.map IssueView.shown).Perm ((final.db.boardList v.projectId).map IssueView.shown) := by
  intro final patched
  have hbefore := BoardVisit.serves_sound (v := v) h before
  have hbetween := BoardVisit.serves_sound (v := v) hbefore between
  have hfinal : final = v.serves (between ++ after) (v.serves before w) := by
    rw [← BoardVisit.serves_append, ← List.append_assoc]
  have hlast : final = v.serves after (v.serves between (v.serves before w)) := by
    rw [hfinal, BoardVisit.serves_append]
  rw [BoardVisit.serves_append] at hsnapshot
  have hkey : UniqueKey IssueView.id snapshot :=
    (hsnapshot.map IssueView.id).nodup_iff.2 (boardList_uniqueKey hbetween.issueIds)
  have hunique : UniqueKey IssueView.id patched := patchAll_uniqueKey _ hkey
  have hsound : TenantSound final.db := by
    rw [hlast]
    exact BoardVisit.serves_sound hbetween after
  refine ⟨hunique, ?_⟩
  refine shown_perm_of_card_eq hunique (boardList_uniqueKey hsound.issueIds) fun id => ?_
  show IssueLens.shown.row patched id = IssueLens.shown.row (final.db.boardList v.projectId) id
  have hold := (BoardVisit.reflects_served (v := v) hbefore between id).synced
  have hnew := BoardVisit.synced_served (v := v) hbetween after id
  rw [IssueLens.row_patchAll, hfinal, BoardVisit.roomEvents_serves_append,
    IssueLens.changes_append, replay_append, IssueLens.row_perm hkey hsnapshot, hold, hnew,
    BoardVisit.serves_append]

/-! ### An issue that is gone from the snapshot -/

namespace Reapply.Samples

open BoardPage.Samples

def edit : IssueRequest × Gen := (TwoEdits.rename false, TwoEdits.draw false)

def drop : IssueRequest × Gen := (.remove Demo.userId.val TwoEdits.issue.id, TwoEdits.draw true)

def add : IssueRequest × Gen :=
  (.create Demo.userId.val Demo.project.key { title := js "Third" }, TwoEdits.draw true)

def snapshot : List IssueView :=
  (visit.serves [edit, drop] start.world).db.boardList visit.projectId

/-- The snapshot is taken after the removal, and the events start before the edit. -/
def patched : List IssueView :=
  patchAll (visit.roomEvents start.world (visit.serves [edit, drop, add] start.world)) snapshot

end Reapply.Samples

open Reapply.Samples BoardPage.Samples in
theorem patchAll_converges_removed : UniqueKey IssueView.id patched ∧
    (patched.map IssueView.shown).Perm
      (((visit.serves [edit, drop, add] start.world).db.boardList visit.projectId).map
        IssueView.shown) :=
  patchAll_converges start_ok.sound [] [edit, drop] [add] (.refl _)

open Reapply.Samples in
example : snapshot = [] ∧ patched.map IssueView.title = [js "Third"] := by decide

end PmSaas
