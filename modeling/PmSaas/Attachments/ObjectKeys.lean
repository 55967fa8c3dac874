import PmSaas.Attachments.AttachmentsService

/-!
# The keys `presign` builds and `confirm` accepts

`buildKey` writes a key under the prefix of an organization and an issue, `confirm` compares the
reported key with a prefix it builds again.

* `issuePrefix_injective`: a key is under one issue's prefix only;
* `confirm_forbidden_iff`: what `confirm` answers to a key under another prefix;
* `buildKey_confirmed_iff`: so the key of a file is accepted for its own issue and no other one,
  whatever the file is called.
-/

namespace PmSaas

open JsString

/-- `randomUUID()`: hexadecimal digits and dashes, 36 of them. -/
def uuidFormat (s : JsString) : Bool :=
  s.length == 36 && s.all fun c =>
    (48 ≤ c.val && c.val ≤ 57) || (97 ≤ c.val && c.val ≤ 102) || c.val == 45

/-- `confirmAttachmentSchema.shape.fileKey`. -/
def fileKeyAccepted (fileKey : JsString) : Prop := 1 ≤ fileKey.length ∧ fileKey.length ≤ 1024

/-- An id as Prisma generates it, of 25 characters. -/
def isCuid (id : JsString) : Bool := cuidFormat id && id.length == 25

section Keys

variable {organizationId organizationId' issueId issueId' fileName uuid key : JsString}

/-- What stands between the first two slashes of a text. -/
theorem eq_of_slash_prefix {a b : JsString} (ha : (47 : CodeUnit) ∉ a) (hb : (47 : CodeUnit) ∉ b)
    (hka : a ++ js "/" <+: key) (hkb : b ++ js "/" <+: key) : a = b := by
  have hsplit : ∀ c, (47 : CodeUnit) ∉ c → c ++ js "/" <+: key → c = key.takeWhile (· != 47) := by
    rintro c hc ⟨rest, rfl⟩
    have hslash : c ++ js "/" ++ rest = c ++ 47 :: rest := by
      rw [List.append_assoc]
      rfl
    rw [hslash, List.takeWhile_append_of_pos]
    · simp
    · intro x hx
      simpa using fun h : x = 47 => hc (h ▸ hx)
  rw [hsplit a ha hka, hsplit b hb hkb]

/-- **A key lies under the prefix of one issue.** -/
theorem issuePrefix_injective (ho : (47 : CodeUnit) ∉ organizationId)
    (ho' : (47 : CodeUnit) ∉ organizationId') (hi : (47 : CodeUnit) ∉ issueId)
    (hi' : (47 : CodeUnit) ∉ issueId') (h : issuePrefix organizationId issueId <+: key)
    (h' : issuePrefix organizationId' issueId' <+: key) :
    organizationId = organizationId' ∧ issueId = issueId' := by
  have horg : ∀ o i, issuePrefix o i <+: key → orgPrefix o <+: key := fun o i h =>
    (show orgPrefix o <+: issuePrefix o i from ⟨js "issues/" ++ i ++ js "/", by
      simp [issuePrefix]⟩).trans h
  obtain rfl := orgPrefix_disjoint ho ho' (horg _ _ h) (horg _ _ h')
  obtain ⟨rest, rfl⟩ := h
  have hsame : ∀ i, issuePrefix organizationId i = (orgPrefix organizationId ++ js "issues/") ++
      (i ++ js "/") := fun i => by simp [issuePrefix]
  rw [hsame, hsame, List.append_assoc _ _ rest, List.prefix_append_right_inj] at h'
  exact ⟨rfl, eq_of_slash_prefix hi hi' ⟨rest, rfl⟩ h'⟩

namespace StorageService

/-- What follows the prefix: the UUID, a dash, and what is left of the file name. -/
def keyTail (fileName uuid : JsString) : JsString :=
  uuid ++ js "-" ++ (replaceRuns isSafeUnit 95 false fileName).take 120

theorem buildKey_eq : buildKey organizationId issueId fileName uuid =
    issuePrefix organizationId issueId ++ keyTail fileName uuid := by
  simp [buildKey, keyTail]

theorem slash_notMem_of_uuidFormat (h : uuidFormat uuid = true) : (47 : CodeUnit) ∉ uuid := by
  rw [uuidFormat, Bool.and_eq_true, List.all_eq_true] at h
  exact fun hmem => absurd (h.2 47 hmem) (by decide)

/-- **The rest of a key has no slash.** -/
theorem slash_notMem_keyTail (huuid : uuidFormat uuid = true) :
    (47 : CodeUnit) ∉ keyTail fileName uuid := by
  have hname : (47 : CodeUnit) ∉ (replaceRuns isSafeUnit 95 false fileName).take 120 := by
    intro hmem
    obtain hsafe | hreplaced := mem_replaceRuns (List.mem_of_mem_take hmem)
    · exact absurd hsafe (by decide)
    · exact absurd hreplaced (by decide)
  rw [keyTail, List.mem_append, List.mem_append]
  rintro ((h | h) | h)
  · exact slash_notMem_of_uuidFormat huuid h
  · exact absurd h (by decide)
  · exact hname h

/-- The length of a key, but for the file name. -/
theorem length_buildKey (organizationId issueId fileName : JsString)
    (huuid : uuidFormat uuid = true) :
    50 + organizationId.length + issueId.length ≤
        (buildKey organizationId issueId fileName uuid).length ∧
      (buildKey organizationId issueId fileName uuid).length ≤
        170 + organizationId.length + issueId.length := by
  rw [uuidFormat, Bool.and_eq_true, beq_iff_eq] at huuid
  have horg : (js "org/").length = 4 := by decide
  have hissues : (js "issues/").length = 7 := by decide
  have hslash : (js "/").length = 1 := by decide
  have hdash : (js "-").length = 1 := by decide
  have hname : ((replaceRuns isSafeUnit 95 false fileName).take 120).length ≤ 120 :=
    List.length_take_le ..
  simp only [buildKey, issuePrefix, orgPrefix, List.length_append, huuid.1, horg, hissues, hslash,
    hdash]
  omega

end StorageService

namespace AttachmentsService

/-- **What `confirm` answers to a key under another prefix**, and to no other key. -/
theorem confirm_forbidden_iff (actorId : JsString) (input : ConfirmAttachmentInput) (g : Gen)
    {w : World} {issue : Issue} (hfound : w.db.findIssue organizationId issueId = some issue) :
    (confirm organizationId actorId issueId input g w).1 =
        .error (.forbidden (js "File key does not belong to this issue")) ↔
      ¬issuePrefix organizationId issueId <+: input.fileKey := by
  rw [confirm, resolveIssue_bind, hfound]
  simp only [Service.throwIf_bind, Service.exec_bind, Service.record_bind, ← startsWith_iff]
  cases startsWith input.fileKey (issuePrefix organizationId issueId) with
  | false => simp
  | true =>
      simp only [Bool.not_true, Bool.false_eq_true, if_false, not_true_eq_false, iff_false]
      unfold Db.createAttachment
      split_ifs
      · simp
      · simp
      · simp [Service.query]

end AttachmentsService

/-- **The key of a file is accepted for its own issue only.**  For ids without a slash, any file
name and any UUID: the key passes the check of `confirm` for an organization and an issue exactly
when it was built for these, nothing after the issue is a further segment, and for generated ids
the schema of `confirm` accepts its length. -/
theorem buildKey_confirmed_iff (organizationId organizationId' issueId issueId' : JsString)
    (fileName uuid : JsString) (ho : (47 : CodeUnit) ∉ organizationId)
    (ho' : (47 : CodeUnit) ∉ organizationId') (hi : (47 : CodeUnit) ∉ issueId)
    (hi' : (47 : CodeUnit) ∉ issueId') (huuid : uuidFormat uuid = true) :
    (startsWith (StorageService.buildKey organizationId issueId fileName uuid)
        (issuePrefix organizationId' issueId') = true ↔
      organizationId = organizationId' ∧ issueId = issueId') ∧
    (∀ actorId input g w issue,
      input.fileKey = StorageService.buildKey organizationId issueId fileName uuid →
      w.db.findIssue organizationId' issueId' = some issue →
      ((AttachmentsService.confirm organizationId' actorId issueId' input g w).1 =
          .error (.forbidden (js "File key does not belong to this issue")) ↔
        ¬(organizationId = organizationId' ∧ issueId = issueId'))) ∧
    (∃ tail, StorageService.buildKey organizationId issueId fileName uuid =
      issuePrefix organizationId issueId ++ tail ∧ (47 : CodeUnit) ∉ tail) ∧
    (isCuid organizationId = true → isCuid issueId = true →
      fileKeyAccepted (StorageService.buildKey organizationId issueId fileName uuid)) := by
  have hown : issuePrefix organizationId issueId <+:
      StorageService.buildKey organizationId issueId fileName uuid :=
    ⟨StorageService.keyTail fileName uuid, StorageService.buildKey_eq.symm⟩
  have hcheck : issuePrefix organizationId' issueId' <+:
      StorageService.buildKey organizationId issueId fileName uuid ↔
        organizationId = organizationId' ∧ issueId = issueId' := by
    constructor
    · exact issuePrefix_injective ho ho' hi hi' hown
    · rintro ⟨rfl, rfl⟩
      exact hown
  refine ⟨startsWith_iff.trans hcheck, fun actorId input g w issue hkey hfound => ?_,
    ⟨_, StorageService.buildKey_eq, StorageService.slash_notMem_keyTail huuid⟩, fun hco hci => ?_⟩
  · rw [AttachmentsService.confirm_forbidden_iff actorId input g hfound, hkey, hcheck]
  · simp only [isCuid, Bool.and_eq_true, beq_iff_eq] at hco hci
    obtain ⟨hlow, hhigh⟩ :=
      StorageService.length_buildKey organizationId issueId fileName huuid
    rw [hco.2, hci.2] at hlow hhigh
    exact ⟨by omega, by omega⟩

end Keys

/-! ### A file of the demo project -/

namespace ObjectKeys.Samples

def uuid : JsString := js "123e4567-e89b-12d3-a456-426614174000"

def fileName : JsString := js "../plan (v2).pdf"

end ObjectKeys.Samples

open ObjectKeys.Samples in
theorem buildKey_confirmed_plan :
    startsWith (StorageService.buildKey (js "corg") (js "cissue") fileName uuid)
        (issuePrefix (js "corg") (js "cissue2")) = false ∧
      StorageService.buildKey (js "corg") (js "cissue") fileName uuid =
        js "org/corg/issues/cissue/123e4567-e89b-12d3-a456-426614174000-.._plan_v2_.pdf" := by
  have hiff := (buildKey_confirmed_iff (js "corg") (js "corg") (js "cissue") (js "cissue2")
    fileName uuid (by decide) (by decide) (by decide) (by decide) (by decide)).1
  refine ⟨?_, by decide⟩
  rw [Bool.eq_false_iff]
  exact fun hpasses => absurd (hiff.1 hpasses).2 (by decide)

end PmSaas
