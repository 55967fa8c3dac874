import PmSaas.Api.TenantMethods
import PmSaas.Db.Reseed
import PmSaas.Lib.Noninterference

/-!
# Tenants do not interfere

`ApiCall.Outside` are the calls that have nothing to do with an organization: sign-ins, new
organizations, another organization's routes, invites, events, uploads and jobs.  Registrations and
preferences do: tenants share the accounts, and adding somebody who has one is not an invitation.
Two histories of the API that differ in outside calls only leave the organization the same slice of
the world and its members the same answers (`tenant_noninterference`).

The requests of the organization must not name what is another's (`Admissible`): a label, a Stripe
customer, a Stripe subscription that hangs on another customer.
-/

namespace PmSaas

open Table TransitionSystem

/-- The organization exists, and its rows can be told apart. -/
structure Tenanted (organizationId : JsString) (w : World) : Prop where
  separated : Separated w.db
  labels : OwnLabels organizationId w.db
  organization : ∃ o ∈ w.db.organizations, o.id = organizationId

/-- A call draws new ids, names own labels and customers on behalf of the organization, and is told
by Stripe about subscriptions of their customers. -/
structure Admissible (organizationId : JsString) (w : World) (call : ApiCall × Gen) : Prop where
  fresh : call.2.Fresh w.db
  names : ∀ user orgSlug write m, call.1 = .tenant user orgSlug write →
    w.db.findMembershipBySlug user.sub orgSlug = some m → m.organizationId = organizationId →
    write.NamesOwn organizationId w.db
  events : ∀ event sub, call.1 = .webhook (.ok event) → event.subscription = some sub →
    ∀ s ∈ w.db.subscriptions, s.stripeSubscriptionId = some sub.id →
      s.stripeCustomerId = some sub.customer

/-- The call is none of the organization's business. -/
def ApiCall.Outside (organizationId : JsString) (db : Db) : ApiCall → Prop
  | .register _ _ => False
  | .login _ _ => True
  | .refresh _ _ => True
  | .logout _ => True
  | .createOrg _ _ => True
  | .acceptInvite _ token => ∀ i ∈ db.invites, i.tokenHash = OrgsService.hashToken token →
      i.organizationId ≠ organizationId
  | .tenant _ orgSlug _ => ∀ o ∈ db.organizations, o.slug = orgSlug → o.id ≠ organizationId
  | .markRead user _ => ∀ n ∈ db.notifications, n.userId = user.sub →
      n.organizationId ≠ organizationId
  | .markAllRead user => ∀ n ∈ db.notifications, n.userId = user.sub →
      n.organizationId ≠ organizationId
  | .updatePrefs _ _ => False
  | .webhook event => ∀ e sub, event = .ok e → e.subscription = some sub →
      ∀ s ∈ db.subscriptions, s.stripeCustomerId = some sub.customer →
        s.organizationId ≠ organizationId
  | .upload url => ¬orgPrefix organizationId <+: url.key
  | .work job => job.organizationId ≠ organizationId

theorem Tenanted.exec {organizationId : JsString} {env : ApiEnv} {w : World}
    {call : ApiCall × Gen} (h : Tenanted organizationId w)
    (hcall : Admissible organizationId w call) :
    Tenanted organizationId (call.1.exec env call.2 w) := by
  refine ⟨h.separated.exec hcall.fresh call.1, ?_, ?_⟩
  · refine call.1.ownLabels env call.2 h.labels fun user orgSlug write m hc hm horg => ?_
    have hown := hcall.names user orgSlug write m hc hm horg
    cases write with
    | createIssue projectKey input => exact hown
    | _ => exact fun l hl => absurd hl List.not_mem_nil
  · obtain ⟨o, ho, hid⟩ := h.organization
    exact ⟨o, (call.1.keepsSeed env call.2 w).organizations.subset ho, hid⟩

section Slices

variable {organizationId : JsString} {env : ApiEnv} {g : Gen} {w w' : World}

/-! ### Calls outside -/

theorem World.slice_of_rows {db : Db} (husers : db.users = w.db.users)
    (hrows : db.ownedBy organizationId = w.db.ownedBy organizationId) :
    ({ w with db := db }).slice organizationId = w.slice organizationId := by
  have hview : db.tenantView organizationId = w.db.tenantView organizationId := by
    unfold Db.tenantView
    rw [hrows, husers]
  exact World.slice_eq hview rfl rfl

/-- Side effects on behalf of another organization that send nothing. -/
theorem World.slice_after {other : JsString} (hne : organizationId ≠ other)
    (hafter : Aftermath other w w') (hsignals : w'.signals organizationId =
      w.signals organizationId) : w'.slice organizationId = w.slice organizationId := by
  have hrows := (RowsConfined.refl other w.db).after hafter organizationId hne
  obtain ⟨logs, -, hdb⟩ := hafter.db
  have husers : w'.db.users = w.db.users := by rw [hdb]
  refine World.slice_eq ?_ (by rw [hafter.objects]) hsignals
  unfold Db.tenantView
  rw [hrows, husers]

theorem TokenService.withTokens_slice (w : World) (tokens : List RefreshToken) :
    (TokenService.withTokens w tokens).slice organizationId = w.slice organizationId := rfl

theorem OrgsService.create_slice (h : Tenanted organizationId w) (hfresh : g.Fresh w.db)
    (userId : JsString) (input : CreateOrgInput) :
    (create userId input g w).2.slice organizationId = w.slice organizationId := by
  have hquiet : (create userId input g).Quiet organizationId :=
    .bind (.query _) fun _ => .bind (.throwIf _ _) fun _ => .bind (.exec _) fun org =>
      .bind (.record ..) fun _ => .done org
  rcases create_cases userId input g w with hsame | ⟨org, db, hc, hafter⟩
  · rw [hsame]
  · have hsignals := hquiet.same w
    obtain ⟨rfl, rfl, -⟩ := Db.createOrganization_ok hc
    have hne : organizationId ≠ (g.cuid 0).val := by
      obtain ⟨o, ho, rfl⟩ := h.organization
      exact hfresh.organizations 0 o ho
    exact (World.slice_after hne hafter hsignals).trans
      (World.slice_of_rows rfl (RowsConfined.insertOrganization _ _ _ g w.db organizationId hne))

/-- The invite of a token is the only one. -/
theorem OrgsService.acceptInvite_slice (h : Tenanted organizationId w) (user : AuthUser)
    {token : JsString} (hother : ∀ i ∈ w.db.invites, i.tokenHash = hashToken token →
      i.organizationId ≠ organizationId) :
    (acceptInvite user.sub user.email token g w).2.slice organizationId =
      w.slice organizationId := by
  have hquiet : (acceptInvite user.sub user.email token g).Quiet organizationId :=
    .bind (.query _) fun _ => .bind (.orThrow _ _) fun invite => .bind (.throwIf _ _) fun _ =>
      .bind (.exec _) fun m => .bind (.record ..) fun _ => .done m
  rcases acceptInvite_cases user.sub user.email token g w with
    hsame | ⟨invite, m, db, db', hfound, -, -, hmember, hburnt, hafter⟩
  · rw [hsame]
  · have hsignals := hquiet.same w
    have hmem := List.mem_of_find?_eq_some hfound
    have hne := (hother invite hmem (by simpa using List.find?_some hfound)).symm
    have hinvites : db.invites = w.db.invites ∧ db.users = w.db.users := by
      rcases Db.upsertMembership_ok hmember with rfl | ⟨rfl, -⟩ <;> exact ⟨rfl, rfl⟩
    have hrows : RowsConfined invite.organizationId w.db db' :=
      (RowsConfined.upsertMembership hmember).trans (.burnInvite
        (hinvites.1 ▸ h.separated.refs.inviteIds) (hinvites.1 ▸ hmem) hburnt)
    have husers : db'.users = w.db.users := by
      obtain ⟨_, rfl⟩ := Db.burnInvite_ok hburnt
      exact hinvites.2
    exact (World.slice_after hne hafter hsignals).trans
      (World.slice_of_rows husers (hrows organizationId hne))

theorem BillingService.reconcileSubscription_quiet (env : BillingEnv) (sub : StripeSubscription)
    (g : Gen) : (reconcileSubscription env sub g).Quiet organizationId := by
  refine .bind (.query _) fun found => ?_
  cases found with
  | none => exact .done ()
  | some found => exact .bind (.exec _) fun _ => .record ..

theorem BillingService.reconcileSubscription_slice (h : Tenanted organizationId w)
    (env : BillingEnv) {sub : StripeSubscription} (hother : ∀ s ∈ w.db.subscriptions,
      s.stripeCustomerId = some sub.customer → s.organizationId ≠ organizationId) :
    (reconcileSubscription env sub g w).2.slice organizationId = w.slice organizationId := by
  rcases reconcileSubscription_cases env sub g w with
    hsame | ⟨found, db, hmem, hcustomer, hr, hafter⟩
  · rw [hsame]
  · have hquiet : (reconcileSubscription env sub g).Quiet organizationId :=
      reconcileSubscription_quiet env sub g
    have hsignals := hquiet.same w
    have hne := (hother found hmem hcustomer).symm
    have hrows := RowsConfined.reconcile h.separated.refs.subscriptionIds hmem hr
    have husers : db.users = w.db.users := by
      rw [Db.reconcile_ok hr]
      rfl
    exact (World.slice_after hne hafter hsignals).trans
      (World.slice_of_rows husers (hrows organizationId hne))

theorem NotificationsProcessor.process_slice {job : NotificationJob}
    (hne : job.organizationId ≠ organizationId) :
    (process job g w).2.slice organizationId = w.slice organizationId := by
  have hquiet : (process job g).Quiet organizationId := by
    refine .bind (.exec _) fun _ => ?_
    cases pref job.type with
    | none => exact .done ()
    | some pref =>
        refine .bind (.query _) fun user => ?_
        cases user.filter pref with
        | none => exact .done ()
        | some user => exact .mail _
  rcases process_cases job g w with hsame | hafter
  · rw [hsame]
  · have hsignals := hquiet.same w
    have hnot : ((newNotification job g).organizationId == organizationId) = false :=
      beq_eq_false_iff_ne.2 hne
    have hkept : (w.db.notifications ++ [newNotification job g]).filter
        (·.organizationId == organizationId) =
          w.db.notifications.filter (·.organizationId == organizationId) := filter_insert hnot
    have hrows : (w.db.insertNotification (newNotification job g)).ownedBy organizationId =
        w.db.ownedBy organizationId := by
      simp only [Db.ownedBy, Db.ownsIssue, Db.insertNotification, hkept]
    exact (World.slice_after hne.symm hafter hsignals).trans (World.slice_of_rows rfl hrows)

theorem StorageService.putObject_slice (url : UploadUrl) (w : World) :
    (putObject url w).slice organizationId =
      { w.slice organizationId with
        objects := deleteWhere (·.key == url.key) (w.slice organizationId).objects ++
          if StoredObject.ownedBy organizationId ⟨url.key, url.contentType⟩ then
            [⟨url.key, url.contentType⟩] else [] } := by
  simp only [World.slice, putObject]
  rw [List.filter_append, filter_deleteWhere_comm]
  simp only [List.filter_cons, List.filter_nil]

/-! ### Calls in both histories -/

/-- The users after `register`, which looks at users only. -/
def AuthService.registered (input : RegisterInput) (g : Gen) (users : List User) : List User :=
  if users.any fun u => u.id == (newUser input g).id || u.email == input.email then users
  else users ++ [newUser input g]

theorem AuthService.register_slice (h : Tenanted organizationId w) (hfresh : g.Fresh w.db)
    (env : Env) (input : RegisterInput) (device : DeviceInfo) :
    (register env input device g w).2.slice organizationId =
      { w.slice organizationId with
        db := { w.db.tenantView organizationId with
          users := registered input g w.db.users } } := by
  have hold : w.db.users.any (fun u => u.id == (newUser input g).id || u.email == input.email) =
      true → registered input g w.db.users = w.db.users := fun hany => if_pos hany
  rw [register, Service.query_bind, Service.throwIf_bind]
  split
  · rename_i hknown
    obtain ⟨u, hu⟩ := Option.isSome_iff_exists.1 hknown
    have hemail := List.find?_some hu
    rw [hold (List.any_eq_true.2 ⟨u, List.mem_of_find?_eq_some hu, by simp_all⟩)]
    rfl
  · rw [Service.exec_bind]
    cases hc : w.db.createUser (newUser input g) with
    | error e =>
        unfold Db.createUser at hc
        split at hc
        · rename_i hany
          rw [hold hany]
          rfl
        · cases hc
    | ok r =>
        obtain ⟨user, db⟩ := r
        have hnew : registered input g w.db.users = w.db.users ++ [newUser input g] := by
          unfold Db.createUser at hc
          split at hc
          · cases hc
          · rename_i hany
            exact if_neg hany
        obtain ⟨rfl, rfl, -⟩ := Db.createUser_ok hc
        rw [hnew]
        cases truthy input.orgName with
        | none =>
            obtain ⟨tokens, hrest⟩ := register_finish env (newUser input g) device (g.skip 5)
              { w with db := { w.db with users := w.db.users ++ [newUser input g] } } (pure ())
            exact (congrArg (World.slice organizationId) hrest).trans rfl
        | some orgName =>
            obtain ⟨tokens, hrest⟩ := register_finish env (newUser input g) device (g.skip 5)
              { w with db := { w.db with users := w.db.users ++ [newUser input g] } }
              (createOrgForUser (newUser input g).id orgName (g.skip 1))
            refine (congrArg (World.slice organizationId) hrest).trans ?_
            have hquiet : (createOrgForUser (newUser input g).id orgName (g.skip 1)).Quiet
                organizationId :=
              .bind (.query _) fun _ => .bind (.exec _) fun _ => .record ..
            rw [TokenService.withTokens_slice]
            rcases createOrgForUser_cases (newUser input g).id orgName (g.skip 1)
              { w with db := { w.db with users := w.db.users ++ [newUser input g] } } with
              hsame | ⟨slug, org, db', hcreated, hafter⟩
            · rw [hsame]
              rfl
            · have hsignals := hquiet.same
                { w with db := { w.db with users := w.db.users ++ [newUser input g] } }
              obtain ⟨rfl, rfl, -⟩ := Db.createOrganization_ok hcreated
              have hne : organizationId ≠ ((g.skip 1).cuid 0).val := by
                obtain ⟨o, ho, rfl⟩ := h.organization
                exact hfresh.organizations 1 o ho
              exact (World.slice_after hne hafter hsignals).trans
                (World.slice_of_rows rfl (RowsConfined.insertOrganization _ _ _ (g.skip 1)
                  { w.db with users := w.db.users ++ [newUser input g] } organizationId hne))

/-- A row of the organization is in both worlds. -/
theorem Paired.mem_invites (h : Paired organizationId g w w') {i : Invite}
    (hi : i ∈ w.db.invites) (horg : i.organizationId = organizationId) : i ∈ w'.db.invites := by
  have hmem : i ∈ (w.db.tenantView organizationId).invites :=
    List.mem_filter.2 ⟨hi, beq_iff_eq.2 horg⟩
  rw [World.view_eq h.slice] at hmem
  exact List.mem_of_mem_filter hmem

theorem Paired.mem_subscriptions (h : Paired organizationId g w w') {s : Subscription}
    (hs : s ∈ w.db.subscriptions) (horg : s.organizationId = organizationId) :
    s ∈ w'.db.subscriptions := by
  have hmem : s ∈ (w.db.tenantView organizationId).subscriptions :=
    List.mem_filter.2 ⟨hs, beq_iff_eq.2 horg⟩
  rw [World.view_eq h.slice] at hmem
  exact List.mem_of_mem_filter hmem

theorem OrgsService.acceptInviteTx_viewed {db : Db} (hrefs : Referential db) (hfresh : g.Fresh db)
    (userId : JsString) {invite : Invite} (hi : invite ∈ db.invites)
    (horg : invite.organizationId = organizationId) :
    viewed organizationId (acceptInviteTx userId invite g db) =
      acceptInviteTx userId invite g (db.tenantView organizationId) := by
  subst horg
  have hmember := @Db.upsertMembership_viewed invite.organizationId db userId invite.role
    (g.cuid 0) g.now (hfresh.memberships 0)
  unfold acceptInviteTx
  rw [← hmember]
  cases hu : db.upsertMembership userId invite.organizationId invite.role (g.cuid 0) g.now with
  | error e => rfl
  | ok r =>
      obtain ⟨m, db'⟩ := r
      have hinvites : db'.invites = db.invites := by
        rcases Db.upsertMembership_ok hu with rfl | ⟨rfl, -⟩ <;> rfl
      have hburn : viewed invite.organizationId (db'.burnInvite invite.id g.now) =
          (db'.tenantView invite.organizationId).burnInvite invite.id g.now := by
        refine Db.burnInvite_viewed g.now fun i hmem hid => ?_
        rw [hinvites] at hmem
        rw [hrefs.inviteIds.eq_of_key_eq hmem hi hid]
      rw [viewed_ok]
      simp only [bind, Except.bind]
      rw [← hburn]
      cases db'.burnInvite invite.id g.now <;> rfl

theorem OrgsService.acceptInvite_respects (h : Paired organizationId g w w') (user : AuthUser)
    {token : JsString} {invite : Invite} (hi : invite ∈ w.db.invites)
    (htoken : invite.tokenHash = hashToken token) (horg : invite.organizationId = organizationId) :
    (acceptInvite user.sub user.email token g).Respects organizationId w w' := by
  have hi' := h.mem_invites hi horg
  have hfind : w.db.findInvite (hashToken token) = some invite :=
    h.separated.invites.tokens.find?_iff.2 ⟨hi, htoken⟩
  have hfind' : w'.db.findInvite (hashToken token) = some invite :=
    h.separated'.invites.tokens.find?_iff.2 ⟨hi', htoken⟩
  refine .query (hfind.trans hfind'.symm) (.orThrow h.slice fun i hfound => ?_)
  rw [hfind] at hfound
  obtain rfl : invite = i := Option.some.inj (Option.filter_eq_some_iff.1 hfound).1
  refine .throwIf h.slice fun _ => .write h.alike
    (acceptInviteTx_viewed h.separated.refs h.fresh user.sub hi horg)
    (acceptInviteTx_viewed h.separated'.refs h.fresh' user.sub hi' horg) ?_
    fun m v v' hv => .record 1 horg hv fun v v' hv => .done hv m
  intro db m db' htx
  obtain ⟨db₁, hu, hb⟩ := acceptInviteTx_ok htx
  obtain ⟨_, rfl⟩ := Db.burnInvite_ok hb
  exact congrArg (fun l => l.2.2) (upsertMembership_ledger hu)

theorem BillingService.reconcileSubscription_respects (h : Paired organizationId g w w')
    (env : BillingEnv) {sub : StripeSubscription} {s : Subscription} (hs : s ∈ w.db.subscriptions)
    (hcustomer : s.stripeCustomerId = some sub.customer) (horg : s.organizationId = organizationId)
    (hevent : ∀ s ∈ w.db.subscriptions, s.stripeSubscriptionId = some sub.id →
      s.stripeCustomerId = some sub.customer)
    (hevent' : ∀ s ∈ w'.db.subscriptions, s.stripeSubscriptionId = some sub.id →
      s.stripeCustomerId = some sub.customer) :
    (reconcileSubscription env sub g).Respects organizationId w w' := by
  have hs' := h.mem_subscriptions hs horg
  -- the rows of the customer are the organization's
  have hown : ∀ {db : Db}, Separated db → s ∈ db.subscriptions → ∀ s' ∈ db.subscriptions,
      s'.stripeCustomerId = some sub.customer → s'.organizationId = organizationId := by
    intro db hsep hmem s' hs' hcustomer'
    rw [← horg]
    exact hsep.customers.customers s' hs' s hmem _ hcustomer' hcustomer
  have hview : ∀ {db : Db}, Separated db → s ∈ db.subscriptions →
      (db.tenantView organizationId).subscriptions.find?
        (·.stripeCustomerId == some sub.customer) =
          db.subscriptions.find? (·.stripeCustomerId == some sub.customer) :=
    fun hsep hmem => find?_view fun s' hs' hkey => by
      simpa using hown hsep hmem s' hs' (beq_iff_eq.1 hkey)
  have hfind : w.db.subscriptions.find? (·.stripeCustomerId == some sub.customer) =
      w'.db.subscriptions.find? (·.stripeCustomerId == some sub.customer) := by
    rw [← hview h.separated hs, World.view_eq h.slice, hview h.separated' hs']
  refine .query hfind ?_
  cases hf : w.db.subscriptions.find? (·.stripeCustomerId == some sub.customer) with
  | none => exact .done h.slice ()
  | some found =>
      have hrow : ∀ {db : Db}, Separated db → s ∈ db.subscriptions →
          db.subscriptions.find? (·.stripeCustomerId == some sub.customer) = some found →
          (∀ s' ∈ db.subscriptions, s'.stripeSubscriptionId = some sub.id →
            s'.stripeCustomerId = some sub.customer) →
          viewed organizationId (db.reconcile found.id (reconciled env sub) g.now) =
            (db.tenantView organizationId).reconcile found.id (reconciled env sub) g.now := by
        intro db hsep hmem hfound hnames
        have hfmem := List.mem_of_find?_eq_some hfound
        have hforg := hown hsep hmem found hfmem (by simpa using List.find?_some hfound)
        refine Db.reconcile_viewed g.now (fun s' hs' hid => ?_)
          fun s' hs' hid => hown hsep hmem s' hs' (hnames s' hs' hid)
        rw [hsep.refs.subscriptionIds.eq_of_key_eq hs' hfmem hid, hforg]
      have hforg := hown h.separated hs found (List.mem_of_find?_eq_some hf)
        (by simpa using List.find?_some hf)
      refine .write h.alike (hrow h.separated hs hf hevent)
        (hrow h.separated' hs' (hfind ▸ hf) hevent') ?_ fun _ v v' hv => .last 0 hforg hv
      intro db _ db' hr
      rw [Db.reconcile_ok hr]
      rfl

theorem NotificationsProcessor.process_respects (h : Paired organizationId g w w')
    {job : NotificationJob} (hjob : job.organizationId = organizationId) :
    (process job g).Respects organizationId w w' := by
  have hlogs : ∀ {db : Db} {a : Unit} {db' : Db},
      db.createNotification (newNotification job g) = .ok (a, db') →
        db'.auditLogs = db.auditLogs := by
    intro db a db' hc
    unfold Db.createNotification at hc
    split_ifs at hc
    cases hc
    rfl
  refine .write h.alike (Db.createNotification_viewed hjob (h.fresh.notifications 0))
    (Db.createNotification_viewed hjob (h.fresh'.notifications 0)) hlogs fun _ v v' hv => ?_
  cases pref job.type with
  | none => exact .done hv.slice ()
  | some pref =>
      have husers : (v.db.tenantView organizationId).users =
          (v'.db.tenantView organizationId).users := congrArg Db.users (World.view_eq hv.slice)
      refine .query (by rw [show v.db.users = v'.db.users from husers]) ?_
      cases (v.db.users.find? (·.id == job.recipientId)).filter pref with
      | none => exact .done hv.slice ()
      | some user => exact ⟨rfl, hv.slice⟩

theorem Paired.symm (h : Paired organizationId g w w') : Paired organizationId g w' w :=
  ⟨h.slice.symm, h.separated', h.separated, h.fresh', h.fresh⟩

end Slices

/-! ### Unwinding -/

section Unwinding

variable {organizationId : JsString} {env : ApiEnv} {g : Gen} {w w' : World}

theorem Db.rewriteNotifications_ownedBy {db : Db} {p : Notification → Bool}
    (hp : ∀ n ∈ db.notifications, p n = true → n.organizationId ≠ organizationId) (now : Date) :
    (db.rewriteNotifications p now).ownedBy organizationId = db.ownedBy organizationId := by
  simp only [Db.ownedBy, Db.ownsIssue, Db.rewriteNotifications]
  rw [filter_updateWhere]
  intro n hn hpn
  simpa using hp n hn hpn

/-- The memberships a slug leads to are those of the organization that has it. -/
theorem Separated.slug_owner {db : Db} (h : Separated db) {o : Organization}
    (ho : o ∈ db.organizations) {userId : JsString} {m : Membership}
    (hm : db.findMembershipBySlug userId o.slug = some m) : m.organizationId = o.id := by
  obtain ⟨-, -, o', ho', hid, hslug⟩ := Db.findMembershipBySlug_some hm
  rw [← hid, h.sound.slugs.eq_of_key_eq ho' ho hslug]

/-- **A call outside leaves the slice as it is.** -/
theorem ApiCall.exec_outside (h : Tenanted organizationId w) (hfresh : g.Fresh w.db)
    {call : ApiCall} (hout : call.Outside organizationId w.db) :
    (call.exec env g w).slice organizationId = w.slice organizationId := by
  cases call with
  | register input device => exact hout.elim
  | login input device =>
      obtain ⟨tokens, heq⟩ := AuthService.login_frame env.auth input device g w
      rw [ApiCall.exec, heq, TokenService.withTokens_slice]
  | refresh token device =>
      obtain ⟨tokens, heq⟩ := TokenService.rotate_frame env.auth token device g w
      rw [ApiCall.exec, AuthService.refresh, heq, TokenService.withTokens_slice]
  | logout token =>
      obtain ⟨tokens, heq⟩ := AuthService.logout_frame env.auth token g w
      rw [ApiCall.exec, heq, TokenService.withTokens_slice]
  | createOrg user input => exact OrgsService.create_slice h hfresh user.sub input
  | acceptInvite user token => exact OrgsService.acceptInvite_slice h user hout
  | tenant user orgSlug write =>
      rcases write.serve_cases env user orgSlug g w with hsame | ⟨m, hm, -, hres⟩
      · rw [ApiCall.exec, hsame]
      · obtain ⟨-, -, o, ho, hid, hslug⟩ := Db.findMembershipBySlug_some hm
        rw [ApiCall.exec, hres]
        exact write.exec_outside h.separated.sound h.organization ⟨o, ho, hid⟩
          (hid ▸ hout o ho hslug) env user.sub g
  | markRead user ids =>
      refine World.slice_of_rows rfl (Db.rewriteNotifications_ownedBy (fun n hn hp => ?_) g.now)
      simp only [Bool.and_eq_true, beq_iff_eq] at hp
      exact hout n hn hp.1.1
  | markAllRead user =>
      refine World.slice_of_rows rfl (Db.rewriteNotifications_ownedBy (fun n hn hp => ?_) g.now)
      simp only [Bool.and_eq_true, beq_iff_eq] at hp
      exact hout n hn hp.1
  | updatePrefs user prefs => exact hout.elim
  | webhook event =>
      rw [ApiCall.exec]
      rcases BillingService.handleWebhook_event env.billing event g w with
        hsame | ⟨verified, sub, rfl, hsub, hres⟩
      · rw [hsame]
      · rw [hres]
        exact BillingService.reconcileSubscription_slice h env.billing (hout verified sub rfl hsub)
  | upload url =>
      have hkey : ∀ object : StoredObject, (object.key == url.key) = true →
          StoredObject.ownedBy organizationId object = false := by
        intro object hobject
        rw [StoredObject.ownedBy, beq_iff_eq.1 hobject, Bool.eq_false_iff, ne_eq,
          List.isPrefixOf_iff_prefix]
        exact hout
      refine (StorageService.putObject_slice url w).trans ?_
      rw [if_neg (by simp [hkey ⟨url.key, url.contentType⟩ (beq_self_eq_true _)]), List.append_nil]
      have hkept : deleteWhere (·.key == url.key) (w.slice organizationId).objects =
          (w.slice organizationId).objects := by
        refine List.filter_eq_self.2 fun object hobject => ?_
        have howned := (List.mem_filter.1 hobject).2
        cases hmatch : object.key == url.key with
        | false => simp [hmatch]
        | true =>
            rw [hkey object hmatch] at howned
            cases howned
      rw [hkept]
  | work job =>
      rw [ApiCall.exec]
      split
      · exact NotificationsProcessor.process_slice hout
      · rfl

/-- A call that is outside in two worlds with equal slices. -/
theorem Paired.exec_outside (h : Tenanted organizationId w) (h' : Tenanted organizationId w')
    (hpair : Paired organizationId g w w') {call : ApiCall}
    (hout : call.Outside organizationId w.db) (hout' : call.Outside organizationId w'.db) :
    (call.exec env g w).slice organizationId = (call.exec env g w').slice organizationId := by
  rw [ApiCall.exec_outside h hpair.fresh hout, ApiCall.exec_outside h' hpair.fresh' hout',
    hpair.slice]

theorem Paired.register (h : Tenanted organizationId w) (h' : Tenanted organizationId w')
    (hpair : Paired organizationId g w w') (input : RegisterInput) (device : DeviceInfo) :
    ((ApiCall.register input device).exec env g w).slice organizationId =
      ((ApiCall.register input device).exec env g w').slice organizationId := by
  have husers : w.db.users = w'.db.users := hpair.query_eq fun _ _ => rfl
  refine (AuthService.register_slice h hpair.fresh env.auth input device).trans
    (Eq.trans ?_ (AuthService.register_slice h' hpair.fresh' env.auth input device).symm)
  rw [hpair.slice, World.view_eq hpair.slice, husers]

theorem Paired.acceptInvite (h : Tenanted organizationId w) (h' : Tenanted organizationId w')
    (hpair : Paired organizationId g w w') (user : AuthUser) (token : JsString) :
    ((ApiCall.acceptInvite user token).exec env g w).slice organizationId =
      ((ApiCall.acceptInvite user token).exec env g w').slice organizationId := by
  by_cases hown : ∃ i ∈ w.db.invites, i.tokenHash = OrgsService.hashToken token ∧
      i.organizationId = organizationId
  · obtain ⟨i, hi, htoken, horg⟩ := hown
    exact (OrgsService.acceptInvite_respects hpair user hi htoken horg).2
  · refine hpair.exec_outside h h' (fun i hi htoken horg => hown ⟨i, hi, htoken, horg⟩)
      fun i hi htoken horg => hown ⟨i, hpair.symm.mem_invites hi horg, htoken, horg⟩

theorem Paired.mem_organizations (hpair : Paired organizationId g w w') {o : Organization}
    (hid : o.id = organizationId) : o ∈ w.db.organizations ↔ o ∈ w'.db.organizations := by
  have hview : ∀ db : Db, o ∈ db.organizations ↔
      o ∈ (db.tenantView organizationId).organizations := fun db =>
    ⟨fun ho => List.mem_filter.2 ⟨ho, beq_iff_eq.2 hid⟩, List.mem_of_mem_filter⟩
  rw [hview, hview w'.db, World.view_eq hpair.slice]

/-- The guard finds the same membership. -/
theorem Paired.findMembershipBySlug (hpair : Paired organizationId g w w') {o : Organization}
    (ho : o ∈ w.db.organizations) (hid : o.id = organizationId) (userId : JsString) :
    w.db.findMembershipBySlug userId o.slug = w'.db.findMembershipBySlug userId o.slug := by
  rw [← Db.findMembershipBySlug_view hpair.separated.sound ho hid, World.view_eq hpair.slice,
    Db.findMembershipBySlug_view hpair.separated'.sound ((hpair.mem_organizations hid).1 ho) hid]

theorem Paired.tenant (h : Tenanted organizationId w) (h' : Tenanted organizationId w')
    (hpair : Paired organizationId g w w') {user : AuthUser} {orgSlug : JsString}
    {write : TenantWrite} (hcall : Admissible organizationId w (.tenant user orgSlug write, g))
    (hcall' : Admissible organizationId w' (.tenant user orgSlug write, g)) :
    ((ApiCall.tenant user orgSlug write).exec env g w).slice organizationId =
      ((ApiCall.tenant user orgSlug write).exec env g w').slice organizationId := by
  by_cases hown : ∃ o ∈ w.db.organizations, o.slug = orgSlug ∧ o.id = organizationId
  · obtain ⟨o, ho, rfl, hid⟩ := hown
    have hmember := hpair.findMembershipBySlug ho hid user.sub
    have hrun : ∀ v, write.serve env user o.slug g v = _ :=
      tenantScoped_apply user o.slug write.metadata fun organizationId v =>
        (.ok (), write.exec env organizationId user.sub g v)
    rw [ApiCall.exec, ApiCall.exec, hrun w, hrun w', ← hmember]
    split
    · exact hpair.slice
    · cases hm : w.db.findMembershipBySlug user.sub o.slug with
      | none => exact hpair.slice
      | some m =>
          have horg : m.organizationId = organizationId :=
            (h.separated.slug_owner ho hm).trans hid
          dsimp only
          cases RbacGuard.canActivate write.metadata (some m.role) with
          | error e => exact hpair.slice
          | ok u =>
              rw [horg]
              exact write.exec_slice hpair env user.sub
                (hcall.names user o.slug write m rfl hm horg)
                (hcall'.names user o.slug write m rfl (hmember ▸ hm) horg)
  · refine hpair.exec_outside h h' (fun o ho hslug hid => hown ⟨o, ho, hslug, hid⟩)
      fun o ho hslug hid => hown ⟨o, (hpair.mem_organizations hid).2 ho, hslug, hid⟩

theorem Paired.updatePrefs (hpair : Paired organizationId g w w') (user : AuthUser)
    (prefs : NotificationPrefsInput) :
    ((ApiCall.updatePrefs user prefs).exec env g w).slice organizationId =
      ((ApiCall.updatePrefs user prefs).exec env g w').slice organizationId := by
  have hview : ∀ db : Db, viewed organizationId (db.updatePrefs user.sub prefs g.now) =
      (db.tenantView organizationId).updatePrefs user.sub prefs g.now := by
    intro db
    unfold Db.updatePrefs
    rw [Db.users_view]
    cases db.users.find? (·.id == user.sub) <;> rfl
  rw [ApiCall.exec, ApiCall.exec, NotificationsService.updatePrefs, Service.exec, Service.exec]
  rcases World.exec_alike hpair.slice (hview w.db) (hview w'.db) with
    ⟨e, he, he'⟩ | ⟨u, db, db', hok, hok', heq⟩
  · rw [he, he']
    exact hpair.slice
  · rw [hok, hok']
    exact heq

theorem Paired.webhook (h : Tenanted organizationId w) (h' : Tenanted organizationId w')
    (hpair : Paired organizationId g w w') {event : StripeEvent}
    (hcall : Admissible organizationId w (.webhook (.ok event), g))
    (hcall' : Admissible organizationId w' (.webhook (.ok event), g)) :
    ((ApiCall.webhook (.ok event)).exec env g w).slice organizationId =
      ((ApiCall.webhook (.ok event)).exec env g w').slice organizationId := by
  by_cases hown : ∃ sub, event.subscription = some sub ∧ ∃ s ∈ w.db.subscriptions,
      s.stripeCustomerId = some sub.customer ∧ s.organizationId = organizationId
  · obtain ⟨sub, hsub, s, hs, hcustomer, horg⟩ := hown
    cases hconfigured : (truthy (some env.billing.STRIPE_SECRET_KEY)).isSome with
    | false =>
        rw [ApiCall.exec, ApiCall.exec,
          BillingService.handleWebhook_unchanged (.inl hconfigured),
          BillingService.handleWebhook_unchanged (.inl hconfigured)]
        exact hpair.slice
    | true =>
        rw [ApiCall.exec, ApiCall.exec, BillingService.handleWebhook_ok event w hconfigured,
          BillingService.handleWebhook_ok event w' hconfigured, hsub]
        exact (BillingService.reconcileSubscription_respects hpair env.billing hs hcustomer
          horg (hcall.events event sub rfl hsub) (hcall'.events event sub rfl hsub)).2
  · refine hpair.exec_outside h h' ?_ ?_
    · rintro e sub ⟨⟩ hsub s hs hcustomer horg
      exact hown ⟨sub, hsub, s, hs, hcustomer, horg⟩
    · rintro e sub ⟨⟩ hsub s hs hcustomer horg
      exact hown ⟨sub, hsub, s, hpair.symm.mem_subscriptions hs horg, hcustomer, horg⟩

theorem Paired.work (h : Tenanted organizationId w) (h' : Tenanted organizationId w')
    (hpair : Paired organizationId g w w') (job : NotificationJob) :
    ((ApiCall.work job).exec env g w).slice organizationId =
      ((ApiCall.work job).exec env g w').slice organizationId := by
  by_cases hjob : job.organizationId = organizationId
  · have hqueue : job ∈ w.queue ↔ job ∈ w'.queue := by
      have hview : ∀ v : World, job ∈ v.queue ↔ job ∈ (v.slice organizationId).queue := fun v =>
        ⟨fun hmem => List.mem_filter.2 ⟨hmem, beq_iff_eq.2 hjob⟩, List.mem_of_mem_filter⟩
      rw [hview, hview w', hpair.slice]
    rw [ApiCall.exec, ApiCall.exec]
    by_cases hqueued : job ∈ w.queue
    · rw [if_pos hqueued, if_pos (hqueue.1 hqueued)]
      exact (NotificationsProcessor.process_respects hpair hjob).2
    · rw [if_neg hqueued, if_neg fun hmem => hqueued (hqueue.2 hmem)]
      exact hpair.slice
  · exact hpair.exec_outside h h' hjob hjob

/-- **A call in two worlds with equal slices leaves equal slices.** -/
theorem ApiCall.exec_slice (h : Tenanted organizationId w) (h' : Tenanted organizationId w')
    (hpair : Paired organizationId g w w') {call : ApiCall}
    (hcall : Admissible organizationId w (call, g))
    (hcall' : Admissible organizationId w' (call, g)) :
    (call.exec env g w).slice organizationId = (call.exec env g w').slice organizationId := by
  cases call with
  | register input device => exact hpair.register h h' input device
  | login input device => exact hpair.exec_outside h h' trivial trivial
  | refresh token device => exact hpair.exec_outside h h' trivial trivial
  | logout token => exact hpair.exec_outside h h' trivial trivial
  | createOrg user input => exact hpair.exec_outside h h' trivial trivial
  | acceptInvite user token => exact hpair.acceptInvite h h' user token
  | tenant user orgSlug write => exact hpair.tenant h h' hcall hcall'
  | markRead user ids =>
      refine World.slice_setDb hpair.slice ?_
      rw [Db.rewriteNotifications_view, World.view_eq hpair.slice, ← Db.rewriteNotifications_view]
  | markAllRead user =>
      refine World.slice_setDb hpair.slice ?_
      rw [Db.rewriteNotifications_view, World.view_eq hpair.slice, ← Db.rewriteNotifications_view]
  | updatePrefs user prefs => exact hpair.updatePrefs user prefs
  | webhook event =>
      cases event with
      | error e => exact hpair.exec_outside h h' (by rintro e' sub ⟨⟩) (by rintro e' sub ⟨⟩)
      | ok event => exact hpair.webhook h h' hcall hcall'
  | upload url =>
      rw [ApiCall.exec, ApiCall.exec, StorageService.putObject_slice,
        StorageService.putObject_slice, hpair.slice]
  | work job => exact hpair.work h h' job

theorem tenant_unwinding (organizationId : JsString) (env : ApiEnv) :
    Unwinding (ApiCall.next env) (World.slice organizationId) (Tenanted organizationId)
      (Admissible organizationId) fun w call => call.1.Outside organizationId w.db where
  invariant _ _ h hcall := h.exec hcall
  unseen _ _ h hcall hout := ApiCall.exec_outside h hcall.fresh hout
  seen _ _ _ h h' hcall hcall' hslice :=
    ApiCall.exec_slice h h' ⟨hslice, h.separated, h'.separated, hcall.fresh, hcall'.fresh⟩ hcall
      hcall'

/-- Equal slices answer a member's request alike. -/
theorem TenantRead.serve_slice (h : Tenanted organizationId w) (h' : Tenanted organizationId w')
    (hslice : w.slice organizationId = w'.slice organizationId)
    (ilike : JsString → JsString → Bool) (request : TenantRead) {user : AuthUser}
    {orgSlug : JsString} (hguard : PassesTenantGuard organizationId user orgSlug w) :
    (request.serve ilike user orgSlug w).1 = (request.serve ilike user orgSlug w').1 := by
  have hagree : AgreeOn organizationId w.db w'.db := by
    have hview := World.view_eq hslice
    have husers : (w.db.tenantView organizationId).users =
        (w'.db.tenantView organizationId).users := congrArg Db.users hview
    refine ⟨husers, ?_⟩
    have hrows : ∀ db : Db, db.ownedBy organizationId =
        { db.tenantView organizationId with users := [] } := fun _ => rfl
    rw [hrows, hrows w'.db, hview]
  have hhandler : (request.handler ilike organizationId w).1 =
      (request.handler ilike organizationId w').1 := by
    rw [← request.handler_view ilike h.separated.sound h.labels, hagree.tenantView,
      request.handler_view ilike h'.separated.sound h'.labels]
  obtain ⟨context, hguard, horg⟩ := hguard
  obtain ⟨hslug, m, hm, rfl⟩ := TenantGuard.canActivate_ok hguard
  have hm' := findMembershipBySlug_of_agree h.separated.sound h'.separated.sound hagree hm horg
  rw [TenantRead.serve, tenantScoped_apply, tenantScoped_apply, if_neg hslug, if_neg hslug, hm, hm']
  dsimp only
  cases RbacGuard.canActivate request.metadata (some m.role) with
  | error e => rfl
  | ok u =>
      rw [show m.organizationId = organizationId from horg]
      exact hhandler

end Unwinding

/-! ### A new organization next door -/

namespace TwoTenants

def drawing (id : Cuid) : Gen := ⟨0, fun _ => id, fun _ => js "r0"⟩

/-- Ann founds a third organization. -/
def foundThird : ApiCall :=
  .createOrg ⟨Demo.userId.val, Demo.user.email⟩ ⟨js "Third", js "third"⟩

def crowded : World := foundThird.exec env (drawing Demo.firstId) (seeded (js "bug"))

theorem drawing_fresh {id : Cuid} {db : Db} (ho : ∀ o ∈ db.organizations, o.id ≠ id.val)
    (hm : ∀ m ∈ db.memberships, m.id ≠ id.val)
    (hp : ∀ p ∈ db.projects, p.id ≠ id.val) (ha : ∀ a ∈ db.auditLogs, a.id ≠ id.val)
    (hrest : (db.invites, db.issues, db.attachments, db.notifications) = ([], [], [], [])) :
    (drawing id).Fresh db := by
  simp only [Prod.mk.injEq] at hrest
  obtain ⟨hi, hissues, hattachments, hnotifications⟩ := hrest
  refine ⟨fun _ => ho, fun _ => hm, ?_, fun _ => hp, ?_, ?_, ?_, fun _ => ha⟩
  · simp [hi]
  · simp [hissues]
  · simp [hattachments]
  · simp [hnotifications]

theorem seeded_tenanted : Tenanted Demo.orgId.val (seeded (js "bug")) := by
  refine ⟨⟨⟨?_, ?_, ?_, ?_⟩, seeded_sound _, ?_⟩, seeded_ownLabels _, by decide⟩
  · constructor <;> decide
  · constructor
    · decide
    · exact fun s hs => absurd hs List.not_mem_nil
  · exact fun l hl => absurd hl List.not_mem_nil
  · exact fun c hc => absurd hc List.not_mem_nil
  · constructor <;> decide

/-- Calls that name no labels and no customers. -/
theorem admissible {w : World} {call : ApiCall × Gen} (hfresh : call.2.Fresh w.db)
    (hcall : call.1 = foundThird ∨ call.1 = createPlain) :
    Admissible Demo.orgId.val w call := by
  refine ⟨hfresh, fun user orgSlug write m hc _ _ => ?_, fun event sub hc => ?_⟩
  · rcases hcall with hcall | hcall
    · rw [hcall] at hc
      cases hc
    · rw [hcall] at hc
      obtain ⟨rfl, rfl, rfl⟩ := ApiCall.tenant.inj hc
      exact fun l hl => absurd hl List.not_mem_nil
  · rcases hcall with hcall | hcall
    · rw [hcall] at hc
      cases hc
    · rw [hcall] at hc
      cases hc

end TwoTenants

end PmSaas
