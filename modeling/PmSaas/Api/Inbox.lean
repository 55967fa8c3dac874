import PmSaas.Api.Changes
import PmSaas.Lib.History
import PmSaas.Notifications.JobRetries

/-!
# Inboxes as histories

What a user's inbox shows is decided by what has happened to it: the notifications the worker has
written for the user, and the user's own requests to mark some or all as read.  `inbox` reads it off
that history; a notification was read when the first later request naming it was made.

* `inbox_of_history`: after any calls, of anybody, the stored rows are those of the history, and
  `list` answers with the latest of them;
* `read_counts`: over any calls, the counts that a user's requests were answered with add up to the
  number of notifications read, so each is counted once.
-/

namespace PmSaas

open Pagination Table TransitionSystem

/-! ### Histories -/

inductive InboxEvent where
  | delivered (n : Notification)
  | read (ids : List JsString) (now : Date)
  | readAll (now : Date)

/-- When the event reads the notification with the id. -/
def InboxEvent.reads (id : JsString) : InboxEvent → Option Date
  | .delivered _ => none
  | .read ids now => if ids.contains id then some now else none
  | .readAll now => some now

/-- The notifications of a history in the order of delivery, with the times of first readings. -/
def inbox : List InboxEvent → List Notification
  | [] => []
  | .delivered n :: later =>
      { n with readAt := later.findSome? (InboxEvent.reads n.id) } :: inbox later
  | .read _ _ :: later => inbox later
  | .readAll _ :: later => inbox later

namespace InboxEvent

/-- What the event does to a notification that is there. -/
def mark (e : InboxEvent) (n : Notification) : Notification :=
  { n with readAt := n.readAt.or (e.reads n.id) }

/-- The notifications it adds. -/
def added : InboxEvent → List Notification
  | .delivered n => [{ n with readAt := none }]
  | _ => []

end InboxEvent

/-- A delivery leaves the others as they are. -/
theorem InboxEvent.map_mark_delivered (n : Notification) (rows : List Notification) :
    rows.map (InboxEvent.delivered n).mark = rows := by
  refine (List.map_congr_left fun m _ => ?_).trans (List.map_id rows)
  rw [InboxEvent.mark, InboxEvent.reads, Option.or_none]
  rfl

/-- **One more event.** -/
theorem inbox_append (events : List InboxEvent) (e : InboxEvent) :
    inbox (events ++ [e]) = (inbox events).map e.mark ++ e.added := by
  induction events with
  | nil => cases e <;> rfl
  | cons first later ih =>
      cases first with
      | delivered n =>
          simp only [List.cons_append, inbox, ih, List.map_cons, InboxEvent.mark,
            List.findSome?_append, List.findSome?_singleton]
      | read ids now => exact ih
      | readAll now => exact ih

/-! ### What calls add to a history -/

/-- The rows of a user. -/
def Db.inboxRows (userId : JsString) (db : Db) : List Notification :=
  db.notifications.filter (·.userId == userId)

namespace ApiCall

/-- The events of a call in the history of a user. -/
def inboxEvents (userId : JsString) (g : Gen) (w : World) : ApiCall → List InboxEvent
  | .work job =>
      if job ∈ w.queue ∧ job.recipientId = userId ∧
          (w.db.createNotification (NotificationsProcessor.newNotification job g)).isOk then
        [.delivered (NotificationsProcessor.newNotification job g)]
      else []
  | .markRead user ids => if user.sub = userId then [.read ids g.now] else []
  | .markAllRead user => if user.sub = userId then [.readAll g.now] else []
  | _ => []

/-- The history of a user over some calls to a fresh installation. -/
def inboxHistory (env : ApiEnv) (userId : JsString) (calls : List (ApiCall × Gen)) :
    List InboxEvent :=
  history (next env) (fun w call => call.1.inboxEvents userId call.2 w) World.empty calls

end ApiCall

/-- The worker and the two requests are all that write notifications. -/
theorem ApiChange.notifications {env : ApiEnv} {g : Gen} {w w' : World} {call : ApiCall}
    (h : ApiChange env g w call w') (hread : ∀ user ids, call ≠ .markRead user ids)
    (hall : ∀ user, call ≠ .markAllRead user) (hwork : ∀ job, call ≠ .work job) :
    w'.db.notifications = w.db.notifications := by
  cases h with
  | register committed =>
      obtain ⟨-, rfl, -⟩ := Db.createUser_ok committed
      rfl
  | registerOrg committed owned =>
      obtain ⟨-, rfl, -⟩ := Db.createUser_ok committed
      obtain ⟨-, rfl, -⟩ := Db.createOrganization_ok owned
      rfl
  | login => rfl
  | refresh => rfl
  | logout => rfl
  | createOrg committed =>
      obtain ⟨-, rfl, -⟩ := Db.createOrganization_ok committed
      rfl
  | acceptInvite found pending addressee committed burnt =>
      obtain ⟨_, rfl⟩ := Db.burnInvite_ok burnt
      rcases Db.upsertMembership_ok committed with rfl | ⟨rfl, -⟩ <;> rfl
  | tenant member allowed change => exact change.personal.2
  | markRead user ids => exact absurd rfl (hread user ids)
  | markAllRead user => exact absurd rfl (hall user)
  | updatePrefs committed =>
      obtain ⟨_, rfl⟩ := Db.updatePrefs_ok committed
      rfl
  | webhook known customer committed =>
      rw [Db.reconcile_ok committed]
      rfl
  | upload url => rfl
  | @work job queued => exact absurd rfl (hwork job)

namespace ApiCall

variable {env : ApiEnv} {g : Gen} {w : World}

theorem exec_notifications (call : ApiCall) (hread : ∀ user ids, call ≠ .markRead user ids)
    (hall : ∀ user, call ≠ .markAllRead user) (hwork : ∀ job, call ≠ .work job) :
    (call.exec env g w).db.notifications = w.db.notifications := by
  rcases call.exec_cases env g w with hsame | ⟨w', organizationId, hchange, hafter⟩
  · rw [hsame]
  · obtain ⟨logs, -, hdb⟩ := hafter.db
    rw [hdb]
    exact hchange.notifications hread hall hwork

theorem inboxRows_rewrite {userId : JsString} {db : Db} {p : Notification → Bool} {now : Date}
    {f : Notification → Notification} (hf : ∀ n, n.userId = userId →
      (if p n = true then { n with readAt := some now } else n) = f n) :
    (db.rewriteNotifications p now).inboxRows userId = (db.inboxRows userId).map f := by
  have hrows : (db.rewriteNotifications p now).inboxRows userId =
      updateWhere p (fun n => { n with readAt := some now }) (db.inboxRows userId) :=
    filter_updateWhere_comm fun _ _ _ => rfl
  rw [hrows]
  refine List.map_congr_left fun n hn => hf n ?_
  simpa using (List.mem_filter.1 hn).2

/-- **What a call adds to a user's inbox.** -/
theorem inboxRows_exec (env : ApiEnv) (userId : JsString) (g : Gen) (w : World) (call : ApiCall) :
    (call.exec env g w).db.inboxRows userId = (call.inboxEvents userId g w).foldl
      (fun rows e => rows.map e.mark ++ e.added) (w.db.inboxRows userId) := by
  cases call with
  | work job =>
      rw [exec, inboxEvents]
      by_cases hqueued : job ∈ w.queue
      · rw [if_pos hqueued]
        rw [NotificationsProcessor.process_db]
        cases hc : w.db.createNotification (NotificationsProcessor.newNotification job g) with
        | error e => rw [if_neg (by simp [Except.isOk, Except.toBool])]; rfl
        | ok r =>
            rw [Db.createNotification_ok hc]
            by_cases hself : job.recipientId = userId
            · rw [if_pos ⟨hqueued, hself, rfl⟩, List.foldl_cons, List.foldl_nil]
              rw [InboxEvent.map_mark_delivered]
              exact filter_insert_of (beq_iff_eq.2 hself)
            · rw [if_neg fun h => hself h.2.1]
              exact filter_insert (beq_eq_false_iff_ne.2 hself)
      · rw [if_neg hqueued, if_neg fun h => hqueued h.1]
        rfl
  | markRead user ids =>
      rw [inboxEvents]
      by_cases hself : user.sub = userId
      · rw [if_pos hself, List.foldl_cons, List.foldl_nil]
        refine (inboxRows_rewrite (f := (InboxEvent.read ids g.now).mark) fun n hn => ?_).trans
          (List.append_nil _).symm
        obtain ⟨id, organizationId, owner, type, payload, readAt, createdAt⟩ := n
        obtain rfl : owner = userId := hn
        by_cases hid : id ∈ ids
        · cases readAt <;> simp [InboxEvent.mark, InboxEvent.reads, hself, hid]
        · simp [InboxEvent.mark, InboxEvent.reads, hid]
      · rw [if_neg hself, List.foldl_nil]
        refine (inboxRows_rewrite (f := id) fun n hn => ?_).trans (List.map_id _)
        simp [hn, Ne.symm hself]
  | markAllRead user =>
      rw [inboxEvents]
      by_cases hself : user.sub = userId
      · rw [if_pos hself, List.foldl_cons, List.foldl_nil]
        refine (inboxRows_rewrite (f := (InboxEvent.readAll g.now).mark) fun n hn => ?_).trans
          (List.append_nil _).symm
        obtain ⟨id, organizationId, owner, type, payload, readAt, createdAt⟩ := n
        obtain rfl : owner = userId := hn
        cases readAt <;> simp [InboxEvent.mark, InboxEvent.reads, hself]
      · rw [if_neg hself, List.foldl_nil]
        refine (inboxRows_rewrite (f := id) fun n hn => ?_).trans (List.map_id _)
        simp [hn, Ne.symm hself]
  | _ => exact congrArg (List.filter _) (exec_notifications _ (by simp) (by simp) (by simp))

end ApiCall

/-- The events of a history, one at a time. -/
theorem foldl_inbox (events : List InboxEvent) :
    events.foldl (fun rows e => rows.map e.mark ++ e.added) [] = inbox events := by
  induction events using List.reverseRecOn with
  | nil => rfl
  | append_singleton events e ih =>
      rw [List.foldl_append, ih, inbox_append]
      rfl

theorem inboxRows_serveAll (env : ApiEnv) (userId : JsString) (calls : List (ApiCall × Gen)) :
    (ApiCall.serveAll env World.empty calls).db.inboxRows userId =
      inbox (ApiCall.inboxHistory env userId calls) := by
  rw [← foldl_inbox]
  exact @view_of_history _ _ _ _ _ _ (fun w : World => w.db.inboxRows userId) _
    (fun w call => call.1.inboxRows_exec env userId call.2 w) World.empty calls

/-- **An inbox is its history.**  `list` answers with the latest notifications of it, in whatever
order the database has those of the same time. -/
theorem inbox_of_history (env : ApiEnv) (userId : JsString) (calls : List (ApiCall × Gen)) :
    (ApiCall.serveAll env World.empty calls).db.inboxRows userId =
      inbox (ApiCall.inboxHistory env userId calls) ∧
    ∀ (orderBy : OrderBy NotificationsService.latestFirst) (unreadOnly : Bool),
      (NotificationsService.list orderBy userId unreadOnly
        (ApiCall.serveAll env World.empty calls)).1 =
          .ok ((orderBy.rows ((inbox (ApiCall.inboxHistory env userId calls)).filter fun n =>
            !unreadOnly || n.readAt.isNone)).take 50) := by
  have hrows := inboxRows_serveAll env userId calls
  refine ⟨hrows, fun orderBy unreadOnly => ?_⟩
  rw [← hrows, Db.inboxRows, List.filter_filter]
  simp only [NotificationsService.list, Service.query, Bool.and_comm]

/-! ### What the requests count -/

namespace ApiCall

/-- How many notifications a request of the user was told it had read. -/
def counted (userId : JsString) (g : Gen) (w : World) : ApiCall → ℕ
  | .markRead user ids =>
      if user.sub = userId then
        (NotificationsService.markRead user.sub ids g.now w).1.toOption.getD 0
      else 0
  | .markAllRead user =>
      if user.sub = userId then
        (NotificationsService.markAllRead user.sub g.now w).1.toOption.getD 0
      else 0
  | _ => 0

/-- The sum over some calls to a fresh installation. -/
def countedAll (env : ApiEnv) (userId : JsString) (calls : List (ApiCall × Gen)) : ℕ :=
  (history (next env) (fun w call => [call.1.counted userId call.2 w]) World.empty calls).sum

end ApiCall

/-- The rows of a user that have been read. -/
def Db.readRows (userId : JsString) (db : Db) : List Notification :=
  (db.inboxRows userId).filter (·.readAt.isSome)

/-- What is marked was unread, and is read then. -/
theorem Db.readRows_rewrite {userId : JsString} {db : Db} {p : Notification → Bool} {now : Date}
    (hp : ∀ n, p n = true → n.userId = userId ∧ n.readAt = none) :
    ((db.rewriteNotifications p now).readRows userId).length =
      (db.readRows userId).length + (db.notifications.filter p).length := by
  simp only [Db.readRows, Db.inboxRows, List.filter_filter, Db.rewriteNotifications]
  refine length_filter_updateWhere fun n _ hn => ?_
  obtain ⟨howner, hunread⟩ := hp n hn
  simp [howner, hunread]

namespace ApiCall

/-- A request is told how many more notifications it has read. -/
theorem readRows_exec (env : ApiEnv) (userId : JsString) (g : Gen) (w : World) (call : ApiCall) :
    ((call.exec env g w).db.readRows userId).length =
      (w.db.readRows userId).length + call.counted userId g w := by
  have hquiet : call.inboxEvents userId g w = [] →
      (call.exec env g w).db.readRows userId = w.db.readRows userId := by
    intro hnone
    rw [Db.readRows, inboxRows_exec, hnone]
    rfl
  cases call with
  | work job =>
      show _ = (w.db.readRows userId).length
      rw [Db.readRows, inboxRows_exec, inboxEvents]
      split
      · simp [InboxEvent.map_mark_delivered, InboxEvent.added, Db.readRows]
      · rfl
  | markRead user ids =>
      rw [counted]
      split
      · rename_i hself
        refine Db.readRows_rewrite fun n hn => ?_
        simp only [Bool.and_eq_true, beq_iff_eq, Option.isNone_iff_eq_none] at hn
        exact ⟨hn.1.1.trans hself, hn.2⟩
      · rename_i hself
        rw [hquiet (if_neg hself), Nat.add_zero]
  | markAllRead user =>
      rw [counted]
      split
      · rename_i hself
        refine Db.readRows_rewrite fun n hn => ?_
        simp only [Bool.and_eq_true, beq_iff_eq, Option.isNone_iff_eq_none] at hn
        exact ⟨hn.1.trans hself, hn.2⟩
      · rename_i hself
        rw [hquiet (if_neg hself), Nat.add_zero]
  | _ => exact congrArg List.length (hquiet rfl)

end ApiCall

/-- **Every reading is counted once.**  What the worker has delivered to a user and the counts that
the user's requests were told differ by what is unread. -/
theorem read_counts (env : ApiEnv) (userId : JsString) (calls : List (ApiCall × Gen)) :
    (inbox (ApiCall.inboxHistory env userId calls)).length =
      ApiCall.countedAll env userId calls +
        ((inbox (ApiCall.inboxHistory env userId calls)).filter (·.readAt.isNone)).length := by
  have hread : ((ApiCall.serveAll env World.empty calls).db.readRows userId).length =
      ApiCall.countedAll env userId calls := by
    rw [ApiCall.countedAll, List.sum_eq_foldl]
    have hstep : ∀ (w : World) (call : ApiCall × Gen),
        ((ApiCall.next env w call).db.readRows userId).length =
          [call.1.counted userId call.2 w].foldl (· + ·) (w.db.readRows userId).length :=
      fun w call => call.1.readRows_exec env userId call.2 w
    exact @view_of_history _ _ _ _ _ _ (fun w : World => (w.db.readRows userId).length) _ hstep
      World.empty calls
  rw [Db.readRows, inboxRows_serveAll] at hread
  rw [List.length_eq_length_filter_add (f := fun n : Notification => n.readAt.isSome), hread]
  simp

end PmSaas
