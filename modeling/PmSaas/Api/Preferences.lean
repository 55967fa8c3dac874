import PmSaas.Api.Changes
import PmSaas.Lib.History
import PmSaas.Notifications.JobRetries

/-!
# Preferences and the mail they allow

The preferences of a user are the last ones the user has set since registration, one by one; before
that every kind of mail is wanted (`prefs_of_history`).  The worker mails the recipient of a job
when it has written the row of the job and these preferences want the mail, and mails nobody else
(`mail_of_history`).
-/

namespace PmSaas

open TransitionSystem

/-! ### Preferences set over time -/

/-- The last value set for one preference, `true` when none was. -/
def lastPref (field : NotificationPrefsInput → Option Bool)
    (history : List NotificationPrefsInput) : Bool :=
  (history.reverse.findSome? field).getD true

/-- The preferences after a history of updates. -/
def lastPrefs (history : List NotificationPrefsInput) : Bool × Bool × Bool :=
  (lastPref NotificationPrefsInput.emailOnAssigned history,
    lastPref NotificationPrefsInput.emailOnMentioned history,
    lastPref NotificationPrefsInput.emailOnComment history)

/-- The user wants mail of the type. -/
def wantsMail (prefs : Bool × Bool × Bool) : NotificationType → Bool
  | .ISSUE_ASSIGNED => prefs.1
  | .MENTIONED => prefs.2.1
  | .COMMENT_CREATED => prefs.2.2
  | .ISSUE_STATUS_CHANGED => false
  | .INVITED => false

theorem lastPref_append (field : NotificationPrefsInput → Option Bool)
    (history : List NotificationPrefsInput) (prefs : NotificationPrefsInput) :
    lastPref field (history ++ [prefs]) = (field prefs).getD (lastPref field history) := by
  rw [lastPref, lastPref, List.reverse_append, List.reverse_singleton, List.singleton_append,
    List.findSome?_cons]
  cases field prefs <;> rfl

namespace ApiCall

/-- What a call sets of a user's preferences. -/
def prefsSet (userId : JsString) (w : World) : ApiCall → List NotificationPrefsInput
  | .updatePrefs user prefs =>
      if user.sub = userId ∧ w.db.users.any (·.id == userId) then [prefs] else []
  | _ => []

/-- The updates over some calls to a fresh installation. -/
def prefsHistory (env : ApiEnv) (userId : JsString) (calls : List (ApiCall × Gen)) :
    List NotificationPrefsInput :=
  history (next env) (fun w call => call.1.prefsSet userId w) World.empty calls

end ApiCall

/-- The accounts with the id have the preferences of the history, which only an account has. -/
structure PrefsSet (userId : JsString) (db : Db) (history : List NotificationPrefsInput) :
    Prop where
  stored : ∀ u ∈ db.users, u.id = userId → NotificationsService.prefSelect u = lastPrefs history
  account : history ≠ [] → ∃ u ∈ db.users, u.id = userId

namespace PrefsSet

variable {userId : JsString} {db db' : Db} {history : List NotificationPrefsInput}

theorem congr (h : PrefsSet userId db history) (heq : db'.users = db.users) :
    PrefsSet userId db' history := by
  constructor
  · rw [heq]
    exact h.stored
  · rw [heq]
    exact h.account

/-- A new account wants every kind of mail. -/
theorem createUser (h : PrefsSet userId db history) {input : RegisterInput} {g : Gen} {u : User}
    (hc : db.createUser (AuthService.newUser input g) = .ok (u, db')) :
    PrefsSet userId db' history := by
  obtain ⟨-, rfl, hnew⟩ := Db.createUser_ok hc
  refine ⟨fun v hv hid => ?_, fun hne => ?_⟩
  · rcases List.mem_append.1 hv with hv | hv
    · exact h.stored v hv hid
    · rw [List.mem_singleton.1 hv] at hid ⊢
      have hempty : history = [] := by
        by_contra hne
        obtain ⟨old, hold, holdId⟩ := h.account hne
        exact hnew old hold (holdId.trans hid.symm)
      rw [hempty]
      rfl
  · obtain ⟨old, hold, hid⟩ := h.account hne
    exact ⟨old, List.mem_append_left _ hold, hid⟩

/-- The preferences that an update names, for one user. -/
theorem updatePrefs (h : PrefsSet userId db history) (target : JsString)
    (prefs : NotificationPrefsInput) (now : Date) :
    PrefsSet userId (db.rewriteUser target (prefs.apply now))
      (history ++ if target = userId ∧ db.users.any (·.id == userId) then [prefs] else []) := by
  have hids : ∀ v ∈ (db.rewriteUser target (prefs.apply now)).users, ∃ u ∈ db.users, u.id = v.id ∧
      v = if u.id == target then prefs.apply now u else u := by
    intro v hv
    obtain ⟨u, hu, rfl⟩ := Table.mem_updateWhere.1 hv
    refine ⟨u, hu, ?_, rfl⟩
    split <;> rfl
  refine ⟨fun v hv hid => ?_, fun hne => ?_⟩
  · obtain ⟨u, hu, hsame, rfl⟩ := hids v hv
    have huser : u.id = userId := hsame.trans hid
    have hany : db.users.any (·.id == userId) = true :=
      List.any_eq_true.2 ⟨u, hu, beq_iff_eq.2 huser⟩
    have hold := h.stored u hu huser
    by_cases htarget : target = userId
    · rw [if_pos (beq_iff_eq.2 (huser.trans htarget.symm)), if_pos ⟨htarget, hany⟩, lastPrefs,
        lastPref_append, lastPref_append, lastPref_append]
      simp only [lastPrefs, NotificationsService.prefSelect, Prod.mk.injEq] at hold
      obtain ⟨hassigned, hmentioned, hcomment⟩ := hold
      simp only [NotificationsService.prefSelect, NotificationPrefsInput.apply, hassigned,
        hmentioned, hcomment]
    · rw [if_neg fun heq => htarget ((beq_iff_eq.1 heq).symm.trans huser),
        if_neg fun hboth => htarget hboth.1, List.append_nil]
      exact hold
  · have hexists : ∃ u ∈ db.users, u.id = userId := by
      by_cases hboth : target = userId ∧ db.users.any (·.id == userId) = true
      · obtain ⟨u, hu, hid⟩ := List.any_eq_true.1 hboth.2
        exact ⟨u, hu, beq_iff_eq.1 hid⟩
      · rw [if_neg hboth, List.append_nil] at hne
        exact h.account hne
    obtain ⟨u, hu, hid⟩ := hexists
    refine ⟨_, Table.mem_updateWhere.2 ⟨u, hu, rfl⟩, ?_⟩
    split
    · exact hid
    · exact hid

end PrefsSet

/-- Registrations and updates are all that write accounts. -/
theorem ApiChange.users {env : ApiEnv} {g : Gen} {w w' : World} {call : ApiCall}
    (h : ApiChange env g w call w') (hregister : ∀ input device, call ≠ .register input device)
    (hprefs : ∀ user prefs, call ≠ .updatePrefs user prefs) : w'.db.users = w.db.users := by
  cases h with
  | @register input device _ _ _ => exact absurd rfl (hregister input device)
  | @registerOrg input device _ _ _ _ _ _ _ _ => exact absurd rfl (hregister input device)
  | login => rfl
  | refresh => rfl
  | logout => rfl
  | createOrg committed =>
      obtain ⟨-, rfl, -⟩ := Db.createOrganization_ok committed
      rfl
  | acceptInvite found pending addressee committed burnt =>
      obtain ⟨_, rfl⟩ := Db.burnInvite_ok burnt
      rcases Db.upsertMembership_ok committed with rfl | ⟨rfl, -⟩ <;> rfl
  | tenant member allowed change => exact change.tables.1
  | markRead user ids => rfl
  | markAllRead user => rfl
  | @updatePrefs user prefs _ _ _ => exact absurd rfl (hprefs user prefs)
  | webhook known customer committed =>
      rw [Db.reconcile_ok committed]
      rfl
  | upload url => rfl
  | work queued => rfl

theorem Aftermath.users {organizationId : JsString} {w w' : World}
    (h : Aftermath organizationId w w') : w'.db.users = w.db.users := by
  obtain ⟨⟨logs, -, hdb⟩, -⟩ := h
  rw [hdb]

/-- **One call.** -/
theorem PrefsSet.exec {env : ApiEnv} {g : Gen} {w : World} {userId : JsString}
    {history : List NotificationPrefsInput} (h : PrefsSet userId w.db history) (call : ApiCall) :
    PrefsSet userId (call.exec env g w).db (history ++ call.prefsSet userId w) := by
  have hquiet : call.prefsSet userId w = [] →
      (∀ input device, call ≠ .register input device) →
      (∀ user prefs, call ≠ .updatePrefs user prefs) →
      PrefsSet userId (call.exec env g w).db (history ++ call.prefsSet userId w) := by
    intro hnone hregister hprefs
    rw [hnone, List.append_nil]
    rcases call.exec_cases env g w with hsame | ⟨w', organizationId, hchange, hafter⟩
    · rw [hsame]
      exact h
    · exact h.congr (hafter.users.trans (hchange.users hregister hprefs))
  cases call with
  | register input device =>
      show PrefsSet userId _ (history ++ [])
      rw [List.append_nil]
      rcases (ApiCall.register input device).exec_cases env g w with
        hsame | ⟨w', organizationId, hchange, hafter⟩
      · rw [hsame]
        exact h
      · refine PrefsSet.congr ?_ hafter.users
        cases hchange with
        | register committed => exact (h.createUser committed).congr rfl
        | registerOrg committed owned =>
            obtain ⟨-, rfl, -⟩ := Db.createOrganization_ok owned
            exact (h.createUser committed).congr rfl
  | updatePrefs user prefs =>
      rw [ApiCall.prefsSet, ApiCall.exec, NotificationsService.updatePrefs, Service.exec,
        Db.updatePrefs]
      cases hfound : w.db.users.find? (·.id == user.sub) with
      | none =>
          have hnobody : ¬(user.sub = userId ∧ w.db.users.any (·.id == userId) = true) := by
            rintro ⟨rfl, hany⟩
            obtain ⟨u, hu, hid⟩ := List.any_eq_true.1 hany
            exact absurd hid (List.find?_eq_none.1 hfound u hu)
          rw [if_neg hnobody, List.append_nil]
          exact h
      | some u => exact h.updatePrefs user.sub prefs g.now
  | _ => exact hquiet rfl (by simp) (by simp)

theorem prefsSet_of_history (env : ApiEnv) (calls : List (ApiCall × Gen)) (userId : JsString) :
    PrefsSet userId (ApiCall.serveAll env World.empty calls).db
      (ApiCall.prefsHistory env userId calls) :=
  history_invariant (P := fun (w : World) events => PrefsSet userId w.db events)
    (fun _ _ call h => h.exec call.1)
    ⟨fun _ hu => absurd hu List.not_mem_nil, fun h => absurd rfl h⟩ calls

/-- **Preferences are the last ones set.** -/
theorem prefs_of_history (env : ApiEnv) (calls : List (ApiCall × Gen)) (userId : JsString) :
    (NotificationsService.getPrefs userId (ApiCall.serveAll env World.empty calls)).1 =
      if (ApiCall.serveAll env World.empty calls).db.users.any (·.id == userId) then
        .ok (lastPrefs (ApiCall.prefsHistory env userId calls))
      else .error (.prisma .recordNotFound) := by
  have hprefs := prefsSet_of_history env calls userId
  generalize ApiCall.serveAll env World.empty calls = w at hprefs ⊢
  rw [NotificationsService.getPrefs, Service.query_bind, Service.orThrow_bind]
  cases hfound : w.db.users.find? (·.id == userId) with
  | none =>
      have hnobody : w.db.users.any (·.id == userId) = false := by
        rw [List.any_eq_false]
        exact List.find?_eq_none.1 hfound
      rw [hnobody]
      rfl
  | some u =>
      have hu := List.mem_of_find?_eq_some hfound
      have hid : u.id = userId := by simpa using List.find?_some hfound
      have hany : w.db.users.any (·.id == userId) = true :=
        List.any_eq_true.2 ⟨u, hu, by simpa using hid⟩
      rw [hany, if_pos rfl, ← hprefs.stored u hu hid]
      rfl

/-- `pref` reads off a row what the type's mail depends on. -/
theorem NotificationsProcessor.pref_eq (type : NotificationType) (u : User) :
    (match pref type with
      | some pref => pref u
      | none => false) = wantsMail (NotificationsService.prefSelect u) type := by
  cases type <;> rfl

/-- The mail of a job. -/
theorem NotificationsProcessor.process_outbox (job : NotificationJob) (g : Gen) (w : World) :
    (process job g w).2.outbox = w.outbox ++
      ((w.db.users.find? (·.id == job.recipientId)).toList.filter fun u =>
        (w.db.createNotification (newNotification job g)).isOk &&
          wantsMail (NotificationsService.prefSelect u) job.type).map fun u =>
        mail u job.type job.payload := by
  simp only [← pref_eq]
  rw [process, Service.exec_bind]
  cases hc : w.db.createNotification (newNotification job g) with
  | error e => simp [Except.isOk, Except.toBool]
  | ok r =>
      rw [Db.createNotification_ok hc]
      dsimp only
      cases pref job.type with
      | none => simp
      | some pref =>
          dsimp only
          rw [Service.query_bind]
          dsimp only [Db.insertNotification]
          cases w.db.users.find? (·.id == job.recipientId) with
          | none => simp
          | some u =>
              cases hwanted : pref u <;>
                simp [Option.filter, hwanted, sendMail, World.mailed, Except.isOk, Except.toBool]

/-- **Who is mailed about a job.**  The recipient, when the row is written and the preferences last
set want mail of its type. -/
theorem mail_of_history (env : ApiEnv) (calls : List (ApiCall × Gen)) (job : NotificationJob)
    (g : Gen) :
    ((ApiCall.work job).exec env g (ApiCall.serveAll env World.empty calls)).outbox =
      (ApiCall.serveAll env World.empty calls).outbox ++
        (((ApiCall.serveAll env World.empty calls).db.users.find?
            (·.id == job.recipientId)).toList.filter fun u =>
          decide (job ∈ (ApiCall.serveAll env World.empty calls).queue) &&
          ((ApiCall.serveAll env World.empty calls).db.createNotification
            (NotificationsProcessor.newNotification job g)).isOk &&
          wantsMail (lastPrefs (ApiCall.prefsHistory env u.id calls)) job.type).map fun u =>
        NotificationsProcessor.mail u job.type job.payload := by
  have hprefs := fun userId => prefsSet_of_history env calls userId
  generalize ApiCall.serveAll env World.empty calls = w at hprefs ⊢
  rw [ApiCall.exec]
  by_cases hqueued : job ∈ w.queue
  · rw [if_pos hqueued, NotificationsProcessor.process_outbox]
    cases hfound : w.db.users.find? (·.id == job.recipientId) with
    | none => rfl
    | some u =>
        have hstored := (hprefs u.id).stored u (List.mem_of_find?_eq_some hfound) rfl
        refine congrArg (w.outbox ++ ·) (congrArg (List.map _) (List.filter_congr fun v hv => ?_))
        rw [List.mem_singleton.1 hv, hstored, decide_eq_true hqueued, Bool.true_and]
  · simp [hqueued]

end PmSaas
