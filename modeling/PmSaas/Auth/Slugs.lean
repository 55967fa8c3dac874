import PmSaas.Lib.Probing
import PmSaas.Lib.Words
import PmSaas.Orgs.OrgTasks

/-!
# The slug of a new organization

`slugify` joins the words of a name, its maximal runs of letters and digits, with dashes and cuts
the text at 40 characters; the loop of `createOrgForUser` numbers the result until it is free.

* `slug_loop_ends`: the loop ends at a free slug, after at most one look-up more than there are
  slugs;
* `slug_rule_iff`: when the slug it ends at is one that `createOrgSchema` accepts, without a dash at
  its ends.
-/

namespace PmSaas

open JsString Probing Words
open OrgTask (slugBase)

/-- The slugs of the organizations there are. -/
def Db.slugs (db : Db) : Finset JsString := (db.organizations.map Organization.slug).toFinset

theorem Db.slugTaken_iff {db : Db} {slug : JsString} :
    db.slugTaken slug = true ↔ slug ∈ db.slugs := by
  simp [Db.slugTaken, Db.slugs]

theorem Db.slugTaken_eq_false_iff {db : Db} {slug : JsString} :
    db.slugTaken slug = false ↔ slug ∉ db.slugs := by
  rw [← Db.slugTaken_iff, Bool.not_eq_true]

/-! ### The loop -/

/-- `for (let i = 1; await findUnique({ where: { slug } }); i++) slug = base + '-' + i`, from a slug
and a number on: so many look-ups, and the slug it ends at. -/
inductive SlugLoop (db : Db) (base : JsString) : JsString → ℕ → ℕ → JsString → Prop
  | free {slug : JsString} {i : ℕ} (free : db.slugTaken slug = false) :
      SlugLoop db base slug i 1 slug
  | taken {slug chosen : JsString} {i lookups : ℕ} (taken : db.slugTaken slug = true)
      (rest : SlugLoop db base (base ++ js "-" ++ decimal i) (i + 1) lookups chosen) :
      SlugLoop db base slug i (lookups + 1) chosen

/-- The loop of the name of a new organization. -/
abbrev SlugChosen (db : Db) (name : JsString) : ℕ → JsString → Prop :=
  SlugLoop db (slugBase name) (slugBase name) 1

section Loop

variable {db : Db} {base slug : JsString} {i lookups : ℕ}

/-- The loop probes the candidates. -/
theorem slugLoop_iff : SlugLoop db base (slugCandidate base i) (i + 1) lookups slug ↔
    Probe (slugCandidate base) db.slugs i lookups slug := by
  have hnext : ∀ i, base ++ js "-" ++ decimal (i + 1) = slugCandidate base (i + 1) := fun i => by
    rw [slugCandidate, if_neg (Nat.succ_ne_zero i)]
  constructor
  · intro h
    generalize hs : slugCandidate base i = s at h
    generalize hi : i + 1 = j at h
    induction h generalizing i with
    | free hfree =>
        subst hs
        exact .free (Db.slugTaken_eq_false_iff.1 hfree)
    | taken htaken _ ih =>
        subst hs hi
        exact .taken (Db.slugTaken_iff.1 htaken) (ih (hnext i).symm rfl)
  · intro h
    induction h with
    | free hfree => exact .free (Db.slugTaken_eq_false_iff.2 hfree)
    | taken htaken _ ih =>
        refine .taken (Db.slugTaken_iff.2 htaken) ?_
        rwa [hnext]

theorem slugChosen_iff {name : JsString} : SlugChosen db name lookups slug ↔
    Probe (slugCandidate (slugBase name)) db.slugs 0 lookups slug :=
  slugLoop_iff (i := 0)

end Loop

/-- The loop with enough fuel probes the candidates as well. -/
theorem probe_slugLoop {db : Db} {base : JsString} {fuel i : ℕ}
    (hfree : db.slugTaken (slugLoop base db fuel i) = false) :
    ∃ lookups, Probe (slugCandidate base) db.slugs i lookups (slugLoop base db fuel i) := by
  induction fuel generalizing i with
  | zero => exact ⟨1, .free (Db.slugTaken_eq_false_iff.1 hfree)⟩
  | succ fuel ih =>
      rw [slugLoop] at hfree ⊢
      split
      · rename_i htaken
        rw [if_pos htaken] at hfree
        obtain ⟨lookups, hrest⟩ := ih hfree
        exact ⟨lookups + 1, .taken (Db.slugTaken_iff.1 htaken) hrest⟩
      · rename_i hnot
        rw [if_neg hnot] at hfree
        exact ⟨1, .free (Db.slugTaken_eq_false_iff.1 hfree)⟩

/-- `createOrgForUser` takes the slug its loop ends at. -/
theorem slugChosen_eq_freeSlug {db : Db} {name slug : JsString} {lookups : ℕ}
    (h : SlugChosen db name lookups slug) : slug = freeSlug (slugBase name) db := by
  obtain ⟨_, hfree⟩ := probe_slugLoop (freeSlug_free (slugBase name) db)
  exact ((slugChosen_iff.1 h).unique hfree).2

/-- **The loop ends.**  Whatever slugs there are and whatever the name is, the loop ends after at
most one look-up more than there are slugs, in one way only, at a slug that is not there, and this
is the slug that the organization gets. -/
theorem slug_loop_ends (db : Db) (name : JsString) :
    ∃ lookups slug, SlugChosen db name lookups slug ∧ lookups ≤ db.slugs.card + 1 ∧
      slug ∉ db.slugs ∧ slug = freeSlug (slugBase name) db ∧
      ∀ lookups' slug', SlugChosen db name lookups' slug' → lookups' = lookups ∧ slug' = slug := by
  obtain ⟨lookups, slug, hprobe, hlookups, hfree⟩ :=
    probe_ends (slugCandidate_injective (slugBase name)) db.slugs
  have hchosen := slugChosen_iff.2 hprobe
  refine ⟨lookups, slug, hchosen, hlookups, hfree, slugChosen_eq_freeSlug hchosen,
    fun lookups' slug' h' => ?_⟩
  exact (slugChosen_iff.1 h').unique hprobe

/-! ### What `slugify` computes -/

/-- Units dropped at the end, in an appended list. -/
theorem rdropWhile_append {α : Type*} (p : α → Bool) (l m : List α) :
    (l ++ m).rdropWhile p = if (m.rdropWhile p).isEmpty then l.rdropWhile p
      else l ++ m.rdropWhile p := by
  simp only [List.rdropWhile, List.reverse_append, List.dropWhile_append, List.isEmpty_reverse]
  split
  · rfl
  · rw [List.reverse_append, List.reverse_reverse]

section Runs

variable {p : CodeUnit → Bool} {r : CodeUnit}

theorem replaceRuns_append {w : JsString} (hw : w ≠ []) (hkeep : ∀ c ∈ w, p c = true)
    (inRun : Bool) (s : JsString) :
    replaceRuns p r inRun (w ++ s) = w ++ replaceRuns p r false s := by
  induction w generalizing inRun with
  | nil => exact absurd rfl hw
  | cons c w ih =>
      rw [List.cons_append, replaceRuns, if_pos (hkeep c List.mem_cons_self)]
      cases w with
      | nil => rfl
      | cons d w => rw [ih (by simp) fun a ha => hkeep a (List.mem_cons_of_mem _ ha)]; rfl

/-- Inside a run, nothing is replaced before the first unit that is kept. -/
theorem dropWhile_replaceRuns_true (hr : p r = false) (s : JsString) :
    (replaceRuns p r true s).dropWhile (· == r) = replaceRuns p r true s := by
  induction s with
  | nil => rfl
  | cons c s ih =>
      rw [replaceRuns]
      split
      · rename_i hc
        have hne : (c == r) = false := by
          refine beq_eq_false_iff_ne.2 fun heq => ?_
          rw [heq, hr] at hc
          cases hc
        rw [List.dropWhile_cons, hne]
        rfl
      · exact ih

theorem dropWhile_replaceRuns (hr : p r = false) (s : JsString) :
    (replaceRuns p r false s).dropWhile (· == r) = replaceRuns p r true s := by
  cases s with
  | nil => rfl
  | cons c s =>
      have hinside := dropWhile_replaceRuns_true hr (c :: s)
      rw [replaceRuns] at hinside
      rw [replaceRuns, replaceRuns]
      split
      · rename_i hc
        rw [if_pos hc] at hinside
        exact hinside
      · rename_i hc
        rw [if_neg hc] at hinside
        simp only [List.dropWhile_cons, beq_self_eq_true, if_true, if_false, Bool.false_eq_true]
        exact hinside

/-- **Replaced runs without the ones at the ends are joined words.** -/
theorem rdropWhile_replaceRuns (hr : p r = false) (s : JsString) :
    (replaceRuns p r true s).rdropWhile (· == r) = joinedBy r (words p s) := by
  have hword : ∀ w : JsString, (∀ c ∈ w, p c = true) → w.rdropWhile (· == r) = w := by
    intro w hkeep
    refine List.rdropWhile_eq_self_iff.2 fun hne heq => ?_
    have hlast := hkeep _ (List.getLast_mem hne)
    rw [beq_iff_eq.1 heq, hr] at hlast
    cases hlast
  induction s using words_induction (p := p) with
  | nil => rw [words_nil]; rfl
  | skip c l hc ih =>
      rw [words_skip hc, replaceRuns, if_neg (by simp [hc])]
      exact ih
  | last w hw hkeep =>
      have happend := replaceRuns_append hw hkeep (r := r) true []
      rw [List.append_nil] at happend
      rw [happend, words_last hw hkeep, joinedBy, List.intercalate_singleton]
      rw [replaceRuns, List.append_nil]
      exact hword w hkeep
  | first w c l hw hkeep hc ih =>
      have hreplaced : replaceRuns p r true (w ++ c :: l) = w ++ [r] ++ replaceRuns p r true l := by
        rw [replaceRuns_append hw hkeep, replaceRuns, if_neg (by simp [hc]), if_neg (by simp),
          List.append_assoc, List.singleton_append]
      rw [words_first hw hkeep hc, hreplaced, rdropWhile_append, ih]
      obtain hnone | hsome := eq_or_ne (words p l) []
      · rw [hnone, if_pos (by simp [joinedBy]), List.rdropWhile_concat, if_pos (by simp),
          hword w hkeep, joinedBy, List.intercalate_singleton]
      · have hne : joinedBy r (words p l) ≠ [] :=
          joinedBy_ne_nil hsome fun v hv => (of_mem_words hv).1
        rw [if_neg (by simpa using hne), joinedBy_cons hsome, List.append_assoc,
          List.singleton_append]

end Runs

theorem isSlugUnit_dash : isSlugUnit 45 = false := by decide

/-- White space is no part of a word. -/
theorem isSlugUnit_of_isWhiteSpace (c : CodeUnit) (h : isWhiteSpace c = true) :
    isSlugUnit c = false := by
  simp only [isWhiteSpace, Bool.or_eq_true, Bool.and_eq_true, decide_eq_true_eq, beq_iff_eq] at h
  simp only [isSlugUnit, Bool.or_eq_false_iff, Bool.and_eq_false_iff, decide_eq_false_iff_not]
  omega

/-- The words of a name: its runs of `a-z0-9`, in lower case. -/
def nameWords (name : JsString) : List JsString := words isSlugUnit (toLowerCase name)

/-- **What `slugify` computes**: the words with dashes between them, cut at 40 characters. -/
theorem slugify_eq (name : JsString) :
    slugify name = (joinedBy 45 (nameWords name)).take 40 := by
  have hdashes : ∀ s, stripDashes (dashRuns s) = joinedBy 45 (words isSlugUnit s) := fun s => by
    rw [stripDashes, dashRuns, dropWhile_replaceRuns isSlugUnit_dash,
      rdropWhile_replaceRuns isSlugUnit_dash]
  rw [slugify, hdashes, trim, words_rdropWhile isSlugUnit_of_isWhiteSpace,
    words_dropWhile isSlugUnit_of_isWhiteSpace, nameWords]

/-- The slug of a name before it is numbered. -/
def plainSlug (name : JsString) : JsString :=
  if nameWords name = [] then js "org" else (joinedBy 45 (nameWords name)).take 40

theorem slugBase_eq (name : JsString) : slugBase name = plainSlug name := by
  rw [slugBase, plainSlug, slugify_eq]
  refine if_congr ⟨fun hnil => ?_, fun hnil => ?_⟩ rfl rfl
  · by_contra hne
    have hjoined : joinedBy 45 (nameWords name) ≠ [] :=
      joinedBy_ne_nil hne fun w hw => (of_mem_words hw).1
    exact (List.take_eq_nil_iff.1 hnil).elim (by omega) hjoined
  · rw [hnil]
    rfl

/-! ### The rule of `createOrgSchema` -/

/-- `slug: z.string().min(2).max(48).regex(/^[a-z0-9-]+$/)`. -/
def slugSchema (slug : JsString) : Bool :=
  2 ≤ slug.length && slug.length ≤ 48 && slug.all fun c => isSlugUnit c || c == 45

/-- The schema accepts the slug, and it neither begins nor ends with a dash. -/
structure WellFormedSlug (slug : JsString) : Prop where
  schema : slugSchema slug = true
  first : slug.head? ≠ some 45
  last : slug.getLast? ≠ some 45

section Rule

variable {name : JsString}

theorem nameWords_word {w : JsString} (h : w ∈ nameWords name) : w ≠ [] ∧ (45 : CodeUnit) ∉ w := by
  obtain ⟨hne, hkeep⟩ := of_mem_words h
  refine ⟨hne, fun hdash => ?_⟩
  have hunit := hkeep 45 hdash
  rw [isSlugUnit_dash] at hunit
  cases hunit

/-- The first 40 characters end with a dash exactly when a dash is the 40th. -/
theorem getLast?_plainSlug : (plainSlug name).getLast? = some 45 ↔
    ∃ k < (nameWords name).length, (joinedBy 45 ((nameWords name).take k)).length = 39 := by
  rw [plainSlug]
  split
  · rename_i hnone
    rw [hnone]
    exact iff_of_false (by decide) nofun
  · have hcut : ((joinedBy 45 (nameWords name)).take 40).getLast? = some 45 ↔
        (joinedBy 45 (nameWords name))[39]? = some 45 := by
      have hlast : (joinedBy 45 (nameWords name)).getLast? ≠ some 45 :=
        getLast?_joinedBy_ne fun w hw => nameWords_word hw
      rw [List.getLast?_take, if_neg (by omega)]
      cases hplace : (joinedBy 45 (nameWords name))[39]? with
      | none => exact iff_of_false hlast nofun
      | some c => rfl
    rw [hcut, getElem?_joinedBy fun w hw => (nameWords_word hw).2]
    refine exists_congr fun k => ⟨fun h => ⟨h.2.1, h.2.2⟩, fun h => ⟨?_, h⟩⟩
    refine Nat.pos_of_ne_zero fun hk => ?_
    have hlength := h.2
    rw [hk] at hlength
    cases hlength

/-- One letter or digit makes a slug of one character. -/
theorem length_plainSlug : (plainSlug name).length = 1 ↔
    ((toLowerCase name).filter isSlugUnit).length = 1 := by
  rw [plainSlug, ← flatten_words]
  split
  · rename_i hnone
    rw [show words isSlugUnit (toLowerCase name) = [] from hnone]
    exact iff_of_false (by decide) nofun
  · rename_i hsome
    have hlength : (joinedBy 45 (nameWords name)).length + 1 =
        (nameWords name).flatten.length + (nameWords name).length := length_joinedBy hsome
    have hwords : (nameWords name).length ≤ (nameWords name).flatten.length :=
      length_le_flatten fun w hw => (nameWords_word hw).1
    have hpos := List.length_pos_iff.2 hsome
    rw [List.length_take]
    change _ ↔ (nameWords name).flatten.length = 1
    omega

theorem plainSlug_units : ∀ c ∈ plainSlug name, isSlugUnit c = true ∨ c = 45 := by
  intro c hc
  rw [plainSlug] at hc
  split at hc
  · have horg : (js "org").all isSlugUnit = true := by decide
    exact .inl (List.all_eq_true.1 horg c hc)
  · obtain rfl | ⟨w, hw, hcw⟩ := mem_joinedBy (List.mem_of_mem_take hc)
    · exact .inr rfl
    · exact .inl ((of_mem_words hw).2 c hcw)

theorem plainSlug_length : 1 ≤ (plainSlug name).length ∧ (plainSlug name).length ≤ 40 := by
  rw [plainSlug]
  split
  · decide
  · rename_i hsome
    have hne : joinedBy 45 (nameWords name) ≠ [] :=
      joinedBy_ne_nil hsome fun w hw => (nameWords_word hw).1
    have hpos := List.length_pos_iff.2 hne
    rw [List.length_take]
    omega

theorem head?_plainSlug : (plainSlug name).head? ≠ some 45 := by
  rw [plainSlug]
  split
  · decide
  · rw [List.head?_take, if_neg (by omega)]
    exact head?_joinedBy_ne fun w hw => nameWords_word hw

/-- The slug without a number. -/
theorem wellFormed_plainSlug_iff : WellFormedSlug (plainSlug name) ↔
    ((toLowerCase name).filter isSlugUnit).length ≠ 1 ∧
      ∀ k < (nameWords name).length, (joinedBy 45 ((nameWords name).take k)).length ≠ 39 := by
  have hlength : 1 ≤ (plainSlug name).length ∧ (plainSlug name).length ≤ 40 := plainSlug_length
  have hlast : (plainSlug name).getLast? ≠ some 45 ↔
      ∀ k < (nameWords name).length, (joinedBy 45 ((nameWords name).take k)).length ≠ 39 := by
    rw [Ne, getLast?_plainSlug]
    push Not
    rfl
  rw [← hlast, Ne, ← length_plainSlug]
  constructor
  · intro h
    have hschema := h.schema
    rw [slugSchema, Bool.and_eq_true, Bool.and_eq_true, decide_eq_true_eq] at hschema
    exact ⟨by omega, h.last⟩
  · rintro ⟨hone, hend⟩
    refine ⟨?_, head?_plainSlug, hend⟩
    rw [slugSchema, Bool.and_eq_true, Bool.and_eq_true, decide_eq_true_eq, decide_eq_true_eq,
      List.all_eq_true]
    refine ⟨⟨by omega, by omega⟩, fun c hc => ?_⟩
    simpa using plainSlug_units c hc

/-- A number below a million is written with one to six digits. -/
theorem decimal_digits {i : ℕ} (hpos : i ≠ 0) (hlt : i < 1000000) :
    decimal i ≠ [] ∧ (decimal i).length ≤ 6 ∧ ∀ c ∈ decimal i, isSlugUnit c = true := by
  have hdigits : (Nat.digits 10 i).length ≤ 6 :=
    (Nat.digits_length_le_iff (by omega) i).2 (by omega)
  rw [decimal, if_neg hpos]
  refine ⟨?_, by simpa using hdigits, fun c hc => ?_⟩
  · simpa [Nat.digits_ne_nil_iff_ne_zero] using hpos
  · obtain ⟨d, hd, rfl⟩ := List.mem_map.1 hc
    have hten : d < 10 := Nat.digits_lt_base (by omega) (List.mem_reverse.1 hd)
    simp only [isSlugUnit, Fin.ofNat, Bool.or_eq_true, Bool.and_eq_true, decide_eq_true_eq]
    omega

/-- A slug with a number below a million. -/
theorem wellFormed_numbered {i : ℕ} (hpos : i ≠ 0) (hlt : i < 1000000) :
    WellFormedSlug (slugCandidate (plainSlug name) i) := by
  obtain ⟨hne, hdigits, hunits⟩ := decimal_digits hpos hlt
  obtain ⟨hone, hforty⟩ : 1 ≤ (plainSlug name).length ∧ (plainSlug name).length ≤ 40 :=
    plainSlug_length
  have hnumber := List.length_pos_iff.2 hne
  have hdash : (js "-").length = 1 := rfl
  rw [slugCandidate, if_neg hpos, List.append_assoc]
  refine ⟨?_, ?_, ?_⟩
  · rw [slugSchema, Bool.and_eq_true, Bool.and_eq_true, decide_eq_true_eq, decide_eq_true_eq,
      List.all_eq_true, List.length_append, List.length_append, hdash]
    refine ⟨⟨by omega, by omega⟩, fun c hc => ?_⟩
    obtain hc | hc := List.mem_append.1 hc
    · simpa using plainSlug_units c hc
    · obtain hc | hc := List.mem_append.1 hc
      · rw [List.mem_singleton.1 (show c ∈ [(45 : CodeUnit)] from hc)]
        rfl
      · rw [hunits c hc]
        rfl
  · rw [List.head?_append_of_ne_nil _ (List.ne_nil_of_length_pos (by omega))]
    exact head?_plainSlug
  · rw [List.getLast?_append_of_ne_nil _ (by simp [hne]), List.getLast?_append_of_ne_nil _ hne]
    intro hlast
    have hunit := hunits 45 (List.mem_of_getLast? hlast)
    rw [isSlugUnit_dash] at hunit
    cases hunit

end Rule

/-- **When the chosen slug is one that `createOrgSchema` accepts.**  There are fewer than a million
slugs.  The slug that the loop ends at satisfies the rule and has no dash at its ends if and only if
the slug of the name was taken (so a number is appended), or the name has not exactly one letter or
digit and none of its words ends at the 39th character of the joined words with another one
following. -/
theorem slug_rule_iff {db : Db} {name slug : JsString} {lookups : ℕ}
    (hfew : db.slugs.card < 1000000) (h : SlugChosen db name lookups slug) :
    WellFormedSlug slug ↔ plainSlug name ∈ db.slugs ∨
      (((toLowerCase name).filter isSlugUnit).length ≠ 1 ∧
        ∀ k < (nameWords name).length, (joinedBy 45 ((nameWords name).take k)).length ≠ 39) := by
  obtain ⟨lookups', _, _, hle, _, _, honly⟩ := slug_loop_ends db name
  obtain ⟨i, hlookups, hslug, hfree, hbefore⟩ := (slugChosen_iff.1 h).eq_candidate
  have hsmall : i < 1000000 := by
    have hsame := (honly _ _ h).1
    omega
  rw [slugBase_eq] at hslug hbefore
  rw [Nat.zero_add] at hslug
  subst hslug
  obtain rfl | hpos := Nat.eq_zero_or_pos i
  · rw [slugCandidate, if_pos rfl] at hfree ⊢
    rw [or_iff_right hfree]
    exact wellFormed_plainSlug_iff
  · have htaken := hbefore 0 hpos
    rw [Nat.zero_add, slugCandidate, if_pos rfl] at htaken
    exact iff_of_true (wellFormed_numbered (by omega) hsmall) (.inl htaken)

/-! ### Short names and long ones -/

namespace Slugs.Samples

/-- The first six words fill 39 characters. -/
def society : JsString := js "Society for the Advancement of Research in Algebra"

theorem chosen_of_base {name slug : JsString} (h : slugBase name = slug) :
    SlugChosen Db.empty name 1 slug := by
  rw [SlugChosen, h]
  exact .free rfl

end Slugs.Samples

open Slugs.Samples in
theorem slug_rule_acme : WellFormedSlug (js "acme-inc") := by
  have hchosen : SlugChosen Db.empty (js "Acme Inc.") 1 (js "acme-inc") :=
    chosen_of_base (by decide)
  exact (slug_rule_iff (by decide) hchosen).2 (.inr (by decide))

open Slugs.Samples in
/-- The first slug is too short, the second one was cut behind a dash. -/
theorem malformed_slugs :
    (SlugChosen Db.empty (js "A") 1 (js "a") ∧ ¬WellFormedSlug (js "a")) ∧
    SlugChosen Db.empty society 1 (js "society-for-the-advancement-of-research-") ∧
      ¬WellFormedSlug (js "society-for-the-advancement-of-research-") := by
  refine ⟨⟨chosen_of_base (by decide), fun h => ?_⟩, chosen_of_base (by decide), fun h => ?_⟩
  · exact absurd h.schema (by decide)
  · exact h.last (by decide)

end PmSaas
