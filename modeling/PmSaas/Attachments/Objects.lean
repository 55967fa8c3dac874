import PmSaas.Attachments.AttachmentsService
import PmSaas.Lib.References
import PmSaas.Lib.TransitionSystem

/-!
# Are the bucket and the attachment rows in step?

`confirm` takes the key from the client and looks neither for the object nor for a row that has the
key already; `remove` deletes the row and then whatever is under its key; the cascade of
`IssuesService.remove` deletes rows and no object.

* Confirming a key twice and removing one of the rows leaves the other without its object
  (`shared_object_lost`), and so does confirming a key again after its removal;
* deleting an issue leaves the objects of its attachments behind.

`Files.Careful` is the condition on each step, and `objects_in_step` is about runs.
-/

namespace PmSaas

open References Table TransitionSystem

/-! ### Runs of the file operations -/

/-- The world, and what clients and the API have done with keys; no step of the API reads that. -/
structure Files where
  world : World
  /-- The upload URLs that were handed out. -/
  signed : List UploadUrl
  /-- The keys that objects were put under. -/
  uploaded : List JsString
  /-- The keys that were confirmed. -/
  confirmed : List JsString

inductive FileAct where
  | presign (organizationId issueId : JsString) (input : PresignAttachmentInput) (g : Gen)
  | upload (url : UploadUrl)
  | confirm (organizationId actorId issueId : JsString) (input : ConfirmAttachmentInput) (g : Gen)
  | remove (organizationId actorId issueId attachmentId : JsString) (g : Gen)
  /-- `IssuesService.remove`. -/
  | removeIssue (organizationId actorId issueId : JsString) (g : Gen)

namespace Files

/-- One operation; the bucket answers. -/
def next (s : Files) : FileAct → Files
  | .presign organizationId issueId input g =>
      match AttachmentsService.presign organizationId issueId input g s.world with
      | (.ok (url, _), w) => { s with world := w, signed := s.signed ++ [url] }
      | (.error _, w) => { s with world := w }
  | .upload url =>
      { s with
        world := StorageService.putObject url s.world
        uploaded := s.uploaded ++ [url.key] }
  | .confirm organizationId actorId issueId input g =>
      match AttachmentsService.confirm organizationId actorId issueId input g s.world with
      | (.ok view, w) => { s with world := w, confirmed := s.confirmed ++ [view.attachment.fileKey] }
      | (.error _, w) => { s with world := w }
  | .remove organizationId actorId issueId attachmentId g =>
      { s with world :=
          (AttachmentsService.remove true organizationId actorId issueId attachmentId g s.world).2 }
  | .removeIssue organizationId actorId issueId g =>
      { s with world := (IssuesService.remove organizationId actorId issueId g s.world).2 }

/-- Clients upload to the URLs they were given, and confirm only keys they have uploaded. -/
def Enabled (s : Files) : FileAct → Prop
  | .upload url => url ∈ s.signed
  | .confirm _ _ _ input _ => input.fileKey ∈ s.uploaded
  | _ => True

instance (s : Files) : ∀ a, Decidable (s.Enabled a)
  | .upload url => inferInstanceAs (Decidable (url ∈ s.signed))
  | .confirm _ _ _ input _ => inferInstanceAs (Decidable (input.fileKey ∈ s.uploaded))
  | .presign _ _ _ _ | .remove _ _ _ _ _ | .removeIssue _ _ _ _ => isTrue trivial

/-- The keys with an object. -/
def present (s : Files) : Set JsString := keysOf StoredObject.key s.world.objects

/-- The keys that were confirmed. -/
def known (s : Files) : Set JsString := keysOf id s.confirmed

/-- The keys on attachment rows. -/
def referred (s : Files) : Set JsString := keysOf Attachment.fileKey s.world.db.attachments

/-- The objects under confirmed keys are exactly those that attachment rows refer to. -/
abbrev InStep (s : Files) : Prop := References.InStep s.present s.known s.referred

end Files

/-- No attachment yet. -/
structure NoFiles (s : Files) : Prop where
  rows : s.world.db.attachments = []
  confirmed : s.confirmed = []

/-! ### The condition on a step -/

/-- `confirm` inserts a row. -/
def AttachmentsService.confirms (organizationId actorId issueId : JsString)
    (input : ConfirmAttachmentInput) (g : Gen) (db : Db) : Bool :=
  (db.findIssue organizationId issueId).isSome &&
    JsString.startsWith input.fileKey (issuePrefix organizationId issueId) &&
    (db.createAttachment (newAttachment actorId issueId input g)).isOk

/-- The attachment that `remove` deletes. -/
def AttachmentsService.removes (organizationId issueId attachmentId : JsString) (db : Db) :
    Option Attachment :=
  (db.findIssue organizationId issueId).bind fun _ => db.findAttachment issueId attachmentId

/-- An upload to a key that was confirmed has a row to go with; what is confirmed is there; a row
is removed only if it is the last with its key; an issue is deleted only if each key of its
attachments is on another issue's too. -/
def Files.Careful (s : Files) : FileAct → Prop
  | .presign _ _ _ _ => True
  | .upload url =>
      url.key ∈ s.confirmed → ∃ a ∈ s.world.db.attachments, a.fileKey = url.key
  | .confirm organizationId actorId issueId input g =>
      AttachmentsService.confirms organizationId actorId issueId input g s.world.db = true →
        ∃ o ∈ s.world.objects, o.key = input.fileKey
  | .remove organizationId _ issueId attachmentId _ =>
      ∀ a ∈ AttachmentsService.removes organizationId issueId attachmentId s.world.db,
        ∀ b ∈ s.world.db.attachments, b.fileKey = a.fileKey → b.id = a.id
  | .removeIssue organizationId _ issueId _ =>
      ∀ i ∈ s.world.db.findIssue organizationId issueId,
        ∀ a ∈ s.world.db.attachments, a.issueId = i.id →
          ∃ b ∈ s.world.db.attachments, b.issueId ≠ i.id ∧ b.fileKey = a.fileKey

instance (s : Files) : ∀ a, Decidable (s.Careful a)
  | .presign _ _ _ _ => isTrue trivial
  | .upload _ => inferInstanceAs (Decidable (_ → ∃ a ∈ _, _))
  | .confirm _ _ _ _ _ => inferInstanceAs (Decidable (_ → ∃ o ∈ _, _))
  | .remove organizationId _ issueId attachmentId _ =>
      inferInstanceAs (Decidable
        (∀ a ∈ AttachmentsService.removes organizationId issueId attachmentId s.world.db,
          ∀ b ∈ s.world.db.attachments, b.fileKey = a.fileKey → b.id = a.id))
  | .removeIssue organizationId _ issueId _ =>
      inferInstanceAs (Decidable (∀ i ∈ s.world.db.findIssue organizationId issueId,
        ∀ a ∈ s.world.db.attachments, a.issueId = i.id →
          ∃ b ∈ s.world.db.attachments, b.issueId ≠ i.id ∧ b.fileKey = a.fileKey))

/-! ### What each operation does to rows and objects -/

section Effects

open AttachmentsService

variable {organizationId actorId issueId attachmentId : JsString} {g : Gen} {w : World}

theorem Aftermath.attachments {w w' : World} (h : Aftermath organizationId w w') :
    w'.db.attachments = w.db.attachments := by
  obtain ⟨logs, _, hdb⟩ := h.db
  rw [hdb]

/-- `confirm` throws and changes nothing unless it inserts a row. -/
theorem confirm_of_not {input : ConfirmAttachmentInput}
    (h : confirms organizationId actorId issueId input g w.db = false) :
    ∃ e, confirm organizationId actorId issueId input g w = (.error e, w) := by
  rw [confirm, resolveIssue_bind]
  cases hi : w.db.findIssue organizationId issueId with
  | none => exact ⟨_, rfl⟩
  | some issue =>
      simp only [Service.throwIf_bind]
      split
      · exact ⟨_, rfl⟩
      · rename_i hkey
        simp only [Service.exec_bind]
        cases hc : w.db.createAttachment (newAttachment actorId issueId input g) with
        | error e => exact ⟨e, rfl⟩
        | ok r =>
            have hkey : JsString.startsWith input.fileKey (issuePrefix organizationId issueId) = true :=
              by simpa using hkey
            simp [confirms, hi, hkey, hc, Except.isOk, Except.toBool] at h

/-- The key of the row that `confirm` inserts is the client's. -/
theorem confirm_of_confirms {input : ConfirmAttachmentInput}
    (h : confirms organizationId actorId issueId input g w.db = true) :
    ∃ view w', confirm organizationId actorId issueId input g w = (.ok view, w') ∧
      view.attachment.fileKey = input.fileKey ∧
      (∀ a ∈ w.db.attachments, a.id ≠ (newAttachment actorId issueId input g).id) ∧
      w'.db.attachments = w.db.attachments ++ [newAttachment actorId issueId input g] ∧
      w'.objects = w.objects := by
  simp only [confirms, Bool.and_eq_true] at h
  obtain ⟨⟨hissue, hkey⟩, hrow⟩ := h
  obtain ⟨issue, hissue⟩ := Option.isSome_iff_exists.1 hissue
  cases hc : w.db.createAttachment (newAttachment actorId issueId input g) with
  | error e =>
      rw [hc] at hrow
      cases hrow
  | ok r =>
      obtain ⟨a, db⟩ := r
      obtain ⟨rfl, rfl, hfresh⟩ := Db.createAttachment_ok hc
      rw [confirm, resolveIssue_bind, hissue]
      simp only [Service.throwIf_bind, hkey, Bool.not_true, Bool.false_eq_true, if_false,
        Service.exec_bind, hc, Service.record_bind]
      refine ⟨_, _, rfl, rfl, hfresh, ?_, ?_⟩
      · exact (Aftermath.recorded (g.cuid 1) g.now _).attachments
      · exact (Aftermath.recorded (g.cuid 1) g.now _).objects

theorem remove_of_none (h : removes organizationId issueId attachmentId w.db = none) :
    (remove true organizationId actorId issueId attachmentId g w).2 = w := by
  rw [remove, resolveIssue_bind]
  cases hi : w.db.findIssue organizationId issueId with
  | none => rfl
  | some issue =>
      simp only [removes, hi, Option.bind_some] at h
      simp only [Service.query_bind, Service.orThrow_bind, h]

/-- `remove` deletes the row and the object under its key. -/
theorem remove_of_some {a : Attachment}
    (h : removes organizationId issueId attachmentId w.db = some a) :
    a ∈ w.db.attachments ∧
      (remove true organizationId actorId issueId attachmentId g w).2.db.attachments =
        deleteWhere (·.id == a.id) w.db.attachments ∧
      (remove true organizationId actorId issueId attachmentId g w).2.objects =
        deleteWhere (·.key == a.fileKey) w.objects := by
  obtain ⟨issue, hi, ha⟩ := Option.bind_eq_some_iff.1 h
  have hmem := (Db.findAttachment_some ha).1
  have hdel : w.db.deleteAttachment a.id = .ok ((), w.db.dropAttachment a.id) :=
    if_pos (List.any_eq_true.2 ⟨a, hmem, beq_self_eq_true a.id⟩)
  rw [remove, resolveIssue_bind, hi]
  simp only [Service.query_bind, Service.orThrow_bind, ha, Service.exec_bind, hdel,
    StorageService.delete_bind, if_true]
  refine ⟨hmem, ?_, ?_⟩
  · exact (Aftermath.recorded (g.cuid 0) g.now _).attachments
  · exact (Aftermath.recorded (g.cuid 0) g.now _).objects

end Effects

/-! ### The condition is exact, step by step -/

namespace Files

/-- **The invariant.** -/
structure Tidy (s : Files) : Prop where
  ids : UniqueKey Attachment.id s.world.db.attachments
  inStep : s.InStep

variable {s : Files}

theorem Tidy.start (h : NoFiles s) : s.Tidy := by
  refine ⟨?_, ?_⟩
  · rw [h.rows]
    exact List.nodup_nil
  · rw [InStep, References.InStep, present, known, referred, h.rows, h.confirmed]
    refine Set.ext fun k => ⟨?_, ?_⟩
    · rintro ⟨_, c, hc, _⟩
      cases hc
    · rintro ⟨a, ha, _⟩
      cases ha

/-- The step keeps the ids apart, and bucket and rows in step exactly if it is careful. -/
def Exact (s : Files) (a : FileAct) : Prop :=
  UniqueKey Attachment.id (s.next a).world.db.attachments ∧ ((s.next a).InStep ↔ s.Careful a)

theorem Tidy.presign (h : s.Tidy) (organizationId issueId : JsString)
    (input : PresignAttachmentInput) (g : Gen) :
    s.Exact (.presign organizationId issueId input g) := by
  have hworld := AttachmentsService.presign_world organizationId issueId input g s.world
  rw [Exact, next]
  rcases hp : AttachmentsService.presign organizationId issueId input g s.world with ⟨r, w⟩
  rw [hp] at hworld
  obtain rfl : w = s.world := hworld
  cases r with
  | error e => exact ⟨h.ids, fun _ => trivial, fun _ => h.inStep⟩
  | ok r => exact ⟨h.ids, fun _ => trivial, fun _ => h.inStep⟩

theorem Tidy.upload (h : s.Tidy) (url : UploadUrl) : s.Exact (.upload url) := by
  have hpresent : (s.next (.upload url)).present = insert url.key s.present := by
    rw [present, next, StorageService.putObject, keysOf_insert, keysOf_deleteWhere,
      Set.insert_sdiff_singleton, present]
  refine ⟨h.ids, ?_⟩
  rw [InStep, hpresent]
  refine h.inStep.put_iff.trans (imp_congr_left ?_)
  exact ⟨fun ⟨k, hk, hkey⟩ => hkey ▸ hk, fun hk => ⟨_, hk, rfl⟩⟩

theorem Tidy.confirm (h : s.Tidy) (organizationId actorId issueId : JsString)
    (input : ConfirmAttachmentInput) (g : Gen) :
    s.Exact (.confirm organizationId actorId issueId input g) := by
  cases hc : AttachmentsService.confirms organizationId actorId issueId input g s.world.db with
  | false =>
      obtain ⟨e, he⟩ := confirm_of_not hc
      simp only [Exact, next, he, Careful, hc]
      exact ⟨h.ids, fun _ hno => absurd hno Bool.false_ne_true, fun _ => h.inStep⟩
  | true =>
      obtain ⟨view, w', hconfirm, hkey, hfresh, hrows, hobjects⟩ := confirm_of_confirms hc
      have hnext : s.next (.confirm organizationId actorId issueId input g) =
          { s with world := w', confirmed := s.confirmed ++ [input.fileKey] } := by
        rw [next, hconfirm]
        dsimp only
        rw [hkey]
      rw [Exact, hnext, Careful, hc, eq_self, true_imp_iff, hrows]
      refine ⟨h.ids.insert hfresh, ?_⟩
      rw [InStep, present, known, referred, hrows, hobjects, keysOf_insert, keysOf_insert]
      exact h.inStep.refer_iff

theorem Tidy.remove (h : s.Tidy) (organizationId actorId issueId attachmentId : JsString)
    (g : Gen) : s.Exact (.remove organizationId actorId issueId attachmentId g) := by
  rw [Exact, Careful]
  cases hr : AttachmentsService.removes organizationId issueId attachmentId s.world.db with
  | none =>
      rw [next, remove_of_none hr]
      exact ⟨h.ids, fun _ a ha => (by cases ha), fun _ => h.inStep⟩
  | some a =>
      obtain ⟨ha, hrows, hobjects⟩ :=
        @remove_of_some organizationId actorId issueId attachmentId g s.world a hr
      rw [next]
      generalize (AttachmentsService.remove true organizationId actorId issueId attachmentId g
        s.world).2 = w' at hrows hobjects
      have hother : ∀ b ∈ s.world.db.attachments, b.id ≠ a.id → b ∈ w'.db.attachments := by
        intro b hb hne
        rw [hrows]
        exact mem_deleteWhere.2 ⟨hb, beq_eq_false_iff_ne.2 hne⟩
      have hiff : Files.InStep { s with world := w' } ↔
          a.fileKey ∉ keysOf Attachment.fileKey w'.db.attachments := by
        rw [InStep, present, hobjects, keysOf_deleteWhere]
        refine h.inStep.release_iff ?_ ?_
        · rw [referred, hrows]
          exact keysOf_deleteWhere_subset _
        · rintro k ⟨b, hb, rfl⟩ hne
          exact ⟨b, hother b hb fun hid => hne (congrArg _ (h.ids.eq_of_key_eq hb ha hid)), rfl⟩
      refine ⟨by rw [hrows]; exact h.ids.delete _, hiff.trans ⟨?_, ?_⟩⟩
      · intro hgone a' ha' b hb hkey
        obtain rfl : a = a' := Option.some.inj ha'
        by_contra hne
        exact hgone ⟨b, hother b hb hne, hkey⟩
      · rintro hcareful ⟨b, hb, hkey⟩
        rw [hrows, mem_deleteWhere] at hb
        exact beq_eq_false_iff_ne.1 hb.2 (hcareful a rfl b hb.1 hkey)

theorem Tidy.removeIssue (h : s.Tidy) (organizationId actorId issueId : JsString) (g : Gen) :
    s.Exact (.removeIssue organizationId actorId issueId g) := by
  rw [Exact, Careful, next]
  rcases IssuesService.remove_cases organizationId actorId issueId g s.world with
    ⟨e, hnone, hremove⟩ | ⟨issue, db, w', hsome, hdelete, hremove, hafter⟩
  · rw [hnone, hremove]
    exact ⟨h.ids, fun _ i hi => (by cases hi), fun _ => h.inStep⟩
  · obtain rfl := Db.deleteIssue_ok hdelete
    rw [hsome, hremove]
    have hrows : w'.db.attachments =
        deleteWhere (·.issueId == issue.id) s.world.db.attachments := hafter.attachments
    have hiff : Files.InStep { s with world := w' } ↔
        s.referred ⊆ keysOf Attachment.fileKey w'.db.attachments := by
      rw [InStep, present, hafter.objects]
      refine h.inStep.drop_iff ?_
      rw [referred, hrows]
      exact keysOf_deleteWhere_subset _
    refine ⟨by rw [hrows]; exact h.ids.delete _, hiff.trans ⟨?_, ?_⟩⟩
    · intro hsub i hi a ha _
      obtain rfl : issue = i := Option.some.inj hi
      obtain ⟨b, hb, hkey⟩ := hsub ⟨a, ha, rfl⟩
      rw [hrows, mem_deleteWhere] at hb
      exact ⟨b, hb.1, beq_eq_false_iff_ne.1 hb.2, hkey⟩
    · rintro hcareful k ⟨a, ha, rfl⟩
      rw [hrows]
      by_cases hissue : a.issueId = issue.id
      · obtain ⟨b, hb, hne, hkey⟩ := hcareful issue rfl a ha hissue
        exact ⟨b, mem_deleteWhere.2 ⟨hb, beq_eq_false_iff_ne.2 hne⟩, hkey⟩
      · exact ⟨a, mem_deleteWhere.2 ⟨ha, beq_eq_false_iff_ne.2 hissue⟩, rfl⟩

/-- **A step keeps bucket and rows in step exactly if it is careful.** -/
theorem Tidy.exact (h : s.Tidy) (a : FileAct) : s.Exact a := by
  cases a with
  | presign organizationId issueId input g => exact h.presign ..
  | upload url => exact h.upload url
  | confirm organizationId actorId issueId input g => exact h.confirm ..
  | remove organizationId actorId issueId attachmentId g => exact h.remove ..
  | removeIssue organizationId actorId issueId g => exact h.removeIssue ..

theorem Tidy.next (h : s.Tidy) {a : FileAct} (hcareful : s.Careful a) : (s.next a).Tidy :=
  ⟨(h.exact a).1, (h.exact a).2.2 hcareful⟩

end Files

/-- **Bucket and rows are in step** in every state of every run of the file operations whose steps
are careful; and there the condition is exact: the next step keeps them in step if and only if it
is careful. -/
theorem objects_in_step {s₀ s : Files} {as : List FileAct} (h₀ : NoFiles s₀)
    (hrun : Run (Guarded (Steps Files.Enabled Files.next) Files.Careful) s₀ as s) :
    s.InStep ∧ ∀ a, (s.next a).InStep ↔ s.Careful a := by
  have h : s.Tidy := by
    refine hrun.invariant (P := Files.Tidy) ?_ (.start h₀)
    intro s a s' hs hstep
    obtain ⟨⟨_, rfl⟩, hcareful⟩ := hstep
    exact hs.next hcareful
  exact ⟨h.inStep, fun a => (h.exact a).2⟩

/-! ### One file -/

namespace Files.Samples

open Demo (firstId secondId)

def issueId : Cuid := Demo.thirdId

def issue : Issue where
  id := issueId.val
  organizationId := Demo.orgId.val
  projectId := Demo.projectId.val
  number := 1
  title := js "Task"
  description := none
  status := .TODO
  priority := .NONE
  rank := js "V"
  reporterId := Demo.userId.val
  assigneeId := none
  dueDate := none
  createdAt := 0
  updatedAt := 0

def start : Files :=
  ⟨{ Demo.world with db := { Demo.world.db with issues := [issue] } }, [], [], []⟩

theorem start_ok : NoFiles start := ⟨rfl, rfl⟩

/-- Every generated id of the step is `id`. -/
def gen (id : Cuid) : Gen := ⟨0, fun _ => id, fun _ => js "u"⟩

def fileKey : JsString := js "org/corg/issues/cthird/u-a.txt"

def uploaded : List FileAct :=
  [.presign Demo.orgId.val issueId.val ⟨js "a.txt", js "text/plain", 1⟩ (gen issueId),
    .upload ⟨fileKey, js "text/plain"⟩]

def confirmed (rowId : Cuid) : FileAct :=
  .confirm Demo.orgId.val Demo.userId.val issueId.val
    ⟨fileKey, js "a.txt", js "text/plain", 1⟩ (gen rowId)

def removed (rowId : Cuid) : FileAct :=
  .remove Demo.orgId.val Demo.userId.val issueId.val rowId.val (gen rowId)

def careful : List FileAct := uploaded ++ [confirmed firstId, removed firstId]

/-- The client confirms twice, and one of the rows is removed. -/
def shared : List FileAct := uploaded ++ [confirmed firstId, confirmed secondId, removed firstId]

/-- The issue is deleted with its attachment. -/
def orphaned : List FileAct :=
  uploaded ++ [confirmed firstId, .removeIssue Demo.orgId.val Demo.userId.val issueId.val (gen firstId)]

def play (as : List FileAct) : Files := as.foldl Files.next start

end Files.Samples

open Files.Samples Demo in
theorem objects_in_step_removed :
    (play careful).InStep ∧ ∀ a, ((play careful).next a).InStep ↔ (play careful).Careful a :=
  objects_in_step start_ok (Along.guarded (show Along _ Files.next start careful by decide))

open Files.Samples Demo in
/-- The second row has lost its object; and a deleted issue leaves an object nobody refers to. -/
theorem shared_object_lost :
    NoFiles start ∧
      Run (Steps Files.Enabled Files.next) start shared (play shared) ∧
      (play shared).world.db.attachments.map (fun a => (a.id, a.fileKey)) =
        [(secondId.val, fileKey)] ∧
      (play shared).world.objects = [] ∧ ¬(play shared).InStep ∧
      Run (Steps Files.Enabled Files.next) start orphaned (play orphaned) ∧
      (play orphaned).world.db.attachments = [] ∧ (play orphaned).confirmed = [fileKey] ∧
      (play orphaned).world.objects.map StoredObject.key = [fileKey] ∧
      ¬(play orphaned).InStep := by
  have hrow : fileKey ∈ (play shared).referred := mem_keysOf.2 (by decide)
  have hnone : fileKey ∉ (play shared).present := mem_keysOf.not.2 (by decide)
  have hobject : fileKey ∈ (play orphaned).present := mem_keysOf.2 (by decide)
  have hknown : fileKey ∈ (play orphaned).known := mem_keysOf.2 (by decide)
  have hgone : fileKey ∉ (play orphaned).referred := mem_keysOf.not.2 (by decide)
  exact ⟨start_ok, Along.run (show Along _ Files.next start shared by decide), by decide, by decide,
    fun h => hnone (References.InStep.isPresent h hrow),
    Along.run (show Along _ Files.next start orphaned by decide), by decide, by decide, by decide,
    fun h => hgone (References.InStep.isReferred h hobject hknown)⟩

end PmSaas
