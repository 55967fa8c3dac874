import PmSaas.Lib.Snapshot
import PmSaas.Web.BoardDrop

/-!
# `hooks.ts`: rolling back an optimistic patch

`useMoveIssue`, `useUpdateIssue` and `useDeleteIssue` patch the cached list when they start, keep
the list as they found it in their context, and put it back when the server rejects the mutation.
Meanwhile the socket events and the other mutations patch the same list.

* `CacheStep.action`: each step of the cache is one of a store with snapshots;
* `CacheStep.Idle`: which mutations and events do nothing to the list that a mutation found;
* `rollback_exact_iff`: a rollback takes back its own patch alone, whenever it comes, exactly when
  all the other steps since the start of the mutation are idle.
-/

namespace PmSaas

open Snapshot Table

/-- An issue in the query cache; an update with labels spreads them onto the card. -/
structure CachedIssue where
  issue : IssueView
  labelIds : Option (List JsString)
  deriving DecidableEq, Repr

/-- The variables of a mutation. -/
inductive HookCall where
  | move (m : Board.Mutation)
  | update (id : JsString) (input : UpdateIssueInput)
  | delete (id : JsString)
  deriving Repr

/-- `{ ...i, ...input }`. -/
def CachedIssue.spread (input : UpdateIssueInput) (i : CachedIssue) : CachedIssue where
  issue := { i.issue with
    title := input.title.getD i.issue.title
    description := input.description.or i.issue.description
    status := input.status.getD i.issue.status
    priority := input.priority.getD i.issue.priority
    assigneeId := input.assigneeId.getD i.issue.assigneeId
    dueDate := input.dueDate.getD i.issue.dueDate }
  labelIds := input.labelIds.or i.labelIds

/-- The optimistic patch of `onMutate`. -/
def HookCall.patch : HookCall → List CachedIssue → List CachedIssue
  | .move m => updateWhere (·.issue.id == m.id) fun i =>
      { i with issue := setPlace (m.input.status, m.optimisticRank) i.issue }
  | .update id input => updateWhere (·.issue.id == id) (CachedIssue.spread input)
  | .delete id => List.filter (·.issue.id != id)

/-- The handlers of `useBoardRealtime`, on cached issues. -/
def cachedPatch (event : IssueEvent) (l : List CachedIssue) : List CachedIssue :=
  match event with
  | .created issue => if l.any (·.issue.id == issue.id) then l else l ++ [⟨issue, none⟩]
  | .updated issue => updateWhere (·.issue.id == issue.id) (fun i => { i with issue := issue }) l
  | .moved id status rank =>
      updateWhere (·.issue.id == id)
        (fun i => { i with issue := setPlace (status, rank) i.issue }) l
  | .deleted id => l.filter (·.issue.id != id)

/-- What touches the cached list: mutations, by number, and socket events. -/
inductive CacheStep where
  | start (mutation : ℕ) (call : HookCall)
  /-- `onError`, with the list of the mutation's context. -/
  | fail (mutation : ℕ)
  /-- Nothing is written before the refetch that `onSettled` asks for. -/
  | succeed (mutation : ℕ)
  | receive (event : IssueEvent)

/-- The query cache of one list, and `ctx.previous` of the mutations. -/
abbrev IssueCache := Store ℕ (List CachedIssue)

def CacheStep.action : CacheStep → Action ℕ (List CachedIssue)
  | .start mutation call => .change mutation call.patch
  | .fail mutation => .undo mutation
  | .succeed _ => .keep
  | .receive event => .patch (cachedPatch event)

/-- The cache after the steps; `old ?? []` is where a patch starts. -/
def IssueCache.after (c : IssueCache) (steps : List CacheStep) : IssueCache :=
  c.run [] (steps.map CacheStep.action)

/-- The step starts the mutation. -/
def CacheStep.Starts (mutation : ℕ) : CacheStep → Prop
  | .start mutation' _ => mutation' = mutation
  | _ => False

theorem CacheStep.begins_iff {mutation : ℕ} {step : CacheStep} :
    step.action.Begins mutation ↔ step.Starts mutation := by
  cases step <;> exact Iff.rfl

theorem IssueCache.after_append (c : IssueCache) (steps steps' : List CacheStep) :
    c.after (steps ++ steps') = (c.after steps).after steps' := by
  rw [after, List.map_append, Store.run_append]
  rfl

/-- The board sees the handlers of the socket events. -/
theorem cachedPatch_issues (event : IssueEvent) (l : List CachedIssue) :
    (cachedPatch event l).map CachedIssue.issue = patch event (l.map CachedIssue.issue) := by
  cases event with
  | created issue =>
      simp only [cachedPatch, patch, List.any_map, Function.comp_def]
      split
      · rfl
      · simp
  | updated issue => exact map_updateWhere_of (g := CachedIssue.issue) (fun _ => rfl) (fun _ => rfl)
  | moved id status rank =>
      exact map_updateWhere_of (g := CachedIssue.issue) (fun _ => rfl) (fun _ => rfl)
  | deleted id => simp only [cachedPatch, patch, List.filter_map, Function.comp_def]

/-! ### Steps that do nothing -/

/-- The card has what the input supplies. -/
structure CachedIssue.Has (input : UpdateIssueInput) (i : CachedIssue) : Prop where
  title : ∀ title ∈ input.title, i.issue.title = title
  description : ∀ description ∈ input.description, i.issue.description = some description
  status : ∀ status ∈ input.status, i.issue.status = status
  priority : ∀ priority ∈ input.priority, i.issue.priority = priority
  assigneeId : ∀ assigneeId ∈ input.assigneeId, i.issue.assigneeId = assigneeId
  dueDate : ∀ dueDate ∈ input.dueDate, i.issue.dueDate = dueDate
  labelIds : ∀ labelIds ∈ input.labelIds, i.labelIds = some labelIds

/-- The mutation is about no card of the list, or every card it is about already is as it makes it;
a deletion is about none. -/
def HookCall.Idle (l : List CachedIssue) : HookCall → Prop
  | .move m => ∀ i ∈ l, i.issue.id = m.id →
      i.issue.status = m.input.status ∧ i.issue.rank = m.optimisticRank
  | .update id input => ∀ i ∈ l, i.issue.id = id → i.Has input
  | .delete id => ∀ i ∈ l, i.issue.id ≠ id

/-- The event tells the list nothing new. -/
def IssueEvent.Idle (l : List CachedIssue) : IssueEvent → Prop
  | .created issue => ∃ i ∈ l, i.issue.id = issue.id
  | .updated issue => ∀ i ∈ l, i.issue.id = issue.id → i.issue = issue
  | .moved id status rank => ∀ i ∈ l, i.issue.id = id →
      i.issue.status = status ∧ i.issue.rank = rank
  | .deleted id => ∀ i ∈ l, i.issue.id ≠ id

/-- The step does nothing to the list of the cache `c`, after steps that have not.  A rollback puts
back the list of its own start: that is the list of `c` when the start is one of those steps. -/
def CacheStep.Idle (c : IssueCache) (since : List CacheStep) : CacheStep → Prop
  | .start _ call => call.Idle (c.data.getD [])
  | .fail mutation =>
      (∃ step ∈ since, step.Starts mutation) ∨ ∀ l ∈ c.saved mutation, c.data = some l
  | .succeed _ => True
  | .receive event => event.Idle (c.data.getD [])

theorem getD_eq_self_iff {α : Type} {o : Option α} {a : α} : o.getD a = a ↔ ∀ b ∈ o, a = b := by
  cases o with
  | none => simp
  | some b => simpa using eq_comm

theorem or_eq_self_iff {α : Type} {o o' : Option α} : o.or o' = o' ↔ ∀ b ∈ o, o' = some b := by
  cases o with
  | none => simp
  | some b => simpa using eq_comm

theorem CachedIssue.spread_eq_iff {input : UpdateIssueInput} {i : CachedIssue} :
    i.spread input = i ↔ i.Has input := by
  obtain ⟨issue, labelIds⟩ := i
  constructor
  · intro h
    simp only [spread, CachedIssue.mk.injEq] at h
    obtain ⟨hissue, hlabels⟩ := h
    exact
      { title := getD_eq_self_iff.1 (congrArg IssueView.title hissue)
        description := or_eq_self_iff.1 (congrArg IssueView.description hissue)
        status := getD_eq_self_iff.1 (congrArg IssueView.status hissue)
        priority := getD_eq_self_iff.1 (congrArg IssueView.priority hissue)
        assigneeId := getD_eq_self_iff.1 (congrArg IssueView.assigneeId hissue)
        dueDate := getD_eq_self_iff.1 (congrArg IssueView.dueDate hissue)
        labelIds := or_eq_self_iff.1 hlabels }
  · intro h
    rw [spread, getD_eq_self_iff.2 h.title, or_eq_self_iff.2 h.description,
      getD_eq_self_iff.2 h.status, getD_eq_self_iff.2 h.priority, getD_eq_self_iff.2 h.assigneeId,
      getD_eq_self_iff.2 h.dueDate, or_eq_self_iff.2 h.labelIds]

theorem setPlace_eq_iff {status : IssueStatus} {rank : JsString} {i : CachedIssue} :
    { i with issue := setPlace (status, rank) i.issue } = i ↔
      i.issue.status = status ∧ i.issue.rank = rank := by
  constructor
  · intro h
    have hissue : setPlace (status, rank) i.issue = i.issue := congrArg CachedIssue.issue h
    exact ⟨(congrArg IssueView.status hissue).symm, (congrArg IssueView.rank hissue).symm⟩
  · rintro ⟨rfl, rfl⟩
    rfl

theorem filter_ne_eq_iff {id : JsString} {l : List CachedIssue} :
    l.filter (·.issue.id != id) = l ↔ ∀ i ∈ l, i.issue.id ≠ id := by
  simp

theorem HookCall.patch_eq_iff {call : HookCall} {l : List CachedIssue} :
    call.patch l = l ↔ call.Idle l := by
  cases call with
  | move m =>
      refine updateWhere_eq_self_iff.trans (forall₂_congr fun i _ => ?_)
      rw [beq_iff_eq, setPlace_eq_iff]
  | update id input =>
      refine updateWhere_eq_self_iff.trans (forall₂_congr fun i _ => ?_)
      rw [beq_iff_eq, CachedIssue.spread_eq_iff]
  | delete id => exact filter_ne_eq_iff

theorem cachedPatch_eq_iff {event : IssueEvent} {l : List CachedIssue} :
    cachedPatch event l = l ↔ event.Idle l := by
  cases event with
  | created issue =>
      simp only [cachedPatch, IssueEvent.Idle]
      split
      · rename_i hany
        exact iff_of_true rfl (by simpa using hany)
      · rename_i hnone
        exact iff_of_false (by simp) (by simpa using hnone)
  | updated issue =>
      refine updateWhere_eq_self_iff.trans (forall₂_congr fun i _ => ?_)
      rw [beq_iff_eq]
      refine imp_congr_right fun _ => ⟨fun h => (congrArg CachedIssue.issue h).symm, ?_⟩
      rintro rfl
      rfl
  | moved id status rank =>
      refine updateWhere_eq_self_iff.trans (forall₂_congr fun i _ => ?_)
      rw [beq_iff_eq, setPlace_eq_iff]
  | deleted id => exact filter_ne_eq_iff

theorem CacheStep.idle_iff {c : IssueCache} {since : List CacheStep} {step : CacheStep} :
    step.action.Idle [] c (since.map CacheStep.action) ↔ step.Idle c since := by
  cases step with
  | start mutation call => exact HookCall.patch_eq_iff
  | fail mutation =>
      refine or_congr ?_ Iff.rfl
      simp only [List.mem_map, exists_exists_and_eq_and, CacheStep.begins_iff]
  | succeed mutation => exact Iff.rfl
  | receive event => exact cachedPatch_eq_iff

/-- **When a rollback is exact.**  A list is loaded, and mutations and socket events patch it in any
order.  Whenever a mutation fails, the list its rollback leaves is the one the same steps give
without the mutation, exactly when each of the other steps since its start is idle. -/
theorem rollback_exact_iff (c : IssueCache) (hloaded : c.data.isSome = true)
    (before between : List CacheStep) (mutation : ℕ) (call : HookCall)
    (hother : ∀ step ∈ between, ¬step.Starts mutation) :
    (∀ soFar, soFar <+: between →
      (c.after (before ++ .start mutation call :: soFar ++ [CacheStep.fail mutation])).data =
        (c.after (before ++ soFar)).data) ↔
      ∀ soFar step, soFar ++ [step] <+: between → step.Idle (c.after before) soFar := by
  have hothers : ∀ a ∈ between.map CacheStep.action, ¬a.Begins mutation := by
    intro a ha
    obtain ⟨step, hstep, rfl⟩ := List.mem_map.1 ha
    exact fun hbegins => hother step hstep (CacheStep.begins_iff.1 hbegins)
  have hfailed : ∀ soFar, c.after (before ++ .start mutation call :: soFar ++
      [CacheStep.fail mutation]) = (c.after before).run []
        (.change mutation call.patch :: soFar.map CacheStep.action ++ [.undo mutation]) := by
    intro soFar
    rw [List.append_assoc, IssueCache.after_append]
    simp [IssueCache.after, CacheStep.action]
  have hundone := Store.undo_along_iff [] (f := call.patch)
    (Store.isSome_run hloaded : (c.after before).data.isSome = true) hothers
  refine Iff.trans ⟨fun h as hp => ?_, fun h soFar hp => ?_⟩
    (hundone.trans ⟨fun h soFar step hp => ?_, fun h as a hp => ?_⟩)
  · obtain ⟨soFar, hprefix, rfl⟩ := List.prefix_map_iff.1 hp
    have hexact := h soFar hprefix
    rwa [hfailed, IssueCache.after_append] at hexact
  · rw [hfailed, IssueCache.after_append]
    exact h _ (hp.map CacheStep.action)
  · have hidle := h (soFar.map CacheStep.action) step.action
      (by simpa using hp.map CacheStep.action)
    exact CacheStep.idle_iff.1 hidle
  · obtain ⟨steps, hprefix, hsteps⟩ := List.prefix_map_iff.1 hp
    obtain ⟨soFar, last, rfl, rfl, hlast⟩ := List.map_eq_append_iff.1 hsteps.symm
    obtain ⟨step, rfl, rfl⟩ := List.map_eq_singleton_iff.1 hlast
    exact CacheStep.idle_iff.2 (h soFar step hprefix)

/-! ### A colleague adds an issue -/

namespace OptimisticRollback.Samples

open Demo (firstId secondId)

def view (id : Cuid) (number : ℕ) (title : String) : IssueView :=
  ⟨id.val, number, js title, none, .TODO, .NONE, js "V", none, Demo.userId.val, none,
    Demo.projectId.val, 0, 0⟩

/-- The list shows one issue, and nothing is pending. -/
def loaded : IssueCache := ⟨some [⟨view firstId 1 "Draft", none⟩], fun _ => none⟩

def rename : CacheStep := .start 0 (.update firstId.val { title := some (js "Final") })

/-- The issue of a colleague arrives while the title is being saved. -/
def meanwhile : List CacheStep := [.receive (.created (view secondId 2 "Bug"))]

/-- The deletion of an issue that the list does not have starts and fails, and an event tells what
the list shows. -/
def quiet : List CacheStep :=
  [.start 1 (.delete secondId.val), .receive (.updated (view firstId 1 "Draft")), .fail 1]

end OptimisticRollback.Samples

open OptimisticRollback.Samples Demo in
theorem rollback_exact_quiet :
    (loaded.after ([] ++ rename :: quiet ++ [CacheStep.fail 0])).data =
      (loaded.after ([] ++ quiet)).data := by
  refine (rollback_exact_iff loaded rfl [] quiet 0 _ (by simp [quiet, CacheStep.Starts])).2 ?_
    quiet (List.prefix_refl _)
  rintro soFar step ⟨rest, hrest⟩
  rcases soFar with _ | ⟨a, _ | ⟨b, _ | ⟨d, soFar⟩⟩⟩
  · obtain ⟨rfl, -⟩ := List.cons_eq_cons.1 hrest
    exact (by decide : ∀ i ∈ [(⟨view firstId 1 "Draft", none⟩ : CachedIssue)],
      i.issue.id ≠ secondId.val)
  · obtain ⟨-, hrest⟩ := List.cons_eq_cons.1 hrest
    obtain ⟨rfl, -⟩ := List.cons_eq_cons.1 hrest
    rintro i hi -
    rw [List.mem_singleton.1 hi]
  · obtain ⟨rfl, hrest⟩ := List.cons_eq_cons.1 hrest
    obtain ⟨-, hrest⟩ := List.cons_eq_cons.1 hrest
    obtain ⟨-, hrest⟩ := List.cons_eq_cons.1 hrest
    obtain ⟨rfl, -⟩ := List.cons_eq_cons.1 hrest
    exact Or.inl ⟨.start 1 (.delete secondId.val), List.mem_cons_self, rfl⟩
  · have hlength := congrArg List.length hrest
    simp [quiet] at hlength

open OptimisticRollback.Samples Demo in
/-- The rollback takes the new issue off the board. -/
theorem rollback_loses_issue :
    ¬∀ (c : IssueCache) (before between : List CacheStep) (mutation : ℕ) (call : HookCall),
      c.data.isSome = true → (∀ step ∈ between, ¬step.Starts mutation) →
      (c.after (before ++ .start mutation call :: between ++ [CacheStep.fail mutation])).data =
        (c.after (before ++ between)).data := by
  intro hall
  have hsame := hall loaded [] meanwhile 0 (.update firstId.val { title := some (js "Final") }) rfl
    (by simp [meanwhile, CacheStep.Starts])
  exact absurd hsame (by decide)

end PmSaas
