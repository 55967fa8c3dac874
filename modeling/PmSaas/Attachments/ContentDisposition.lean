import PmSaas.Attachments.AttachmentsService
import PmSaas.Lib.QuotedString

/-!
# The `Content-Disposition` of a download

`presignDownload` puts the stored file name between quotation marks as it stands.  RFC 6266 reads
what is between them as a quoted string, with the quotation mark at its end, the backslash as the
escape and octets of ISO-8859-1 as its letters.

* `disposition?`: the grammar of RFC 6266;
* `presignDownload_disposition_iff`: the header says what the file name is exactly when no character
  of the name has a meaning of its own in a quoted string.
-/

namespace PmSaas

open QuotedString

/-- `confirmAttachmentSchema.shape.fileName`. -/
def fileNameAccepted (fileName : JsString) : Prop := 1 ≤ fileName.length ∧ fileName.length ≤ 255

namespace ContentDisposition

structure Disposition where
  type : JsString
  parameters : List (JsString × JsString)
  deriving DecidableEq, Repr

/-! ### The grammar -/

/-- `SP | HT`, which may stand between a word and a separator. -/
def isSpace (c : CodeUnit) : Bool := c == 32 || c == 9

/-- An ASCII character that is neither a control character nor a separator: the letters, the digits
and ``!#$%&'*+-.^_`|~``. -/
def isTokenChar (c : CodeUnit) : Bool :=
  c == 33 || (35 ≤ c.val && c.val ≤ 39) || c == 42 || c == 43 || c == 45 || c == 46 ||
    (48 ≤ c.val && c.val ≤ 57) || (65 ≤ c.val && c.val ≤ 90) || (94 ≤ c.val && c.val ≤ 122) ||
    c == 124 || c == 126

/-- `TEXT`, an octet that is no control character, or white space.  What is above U+00FF is no
octet. -/
def isText (c : CodeUnit) : Bool :=
  c == 9 || (32 ≤ c.val && c.val ≤ 126) || (128 ≤ c.val && c.val ≤ 255)

/-- `quoted-string`; a backslash begins a `quoted-pair`, with any ASCII character. -/
def quotedString : Marks CodeUnit where
  quote := 34
  escape := 92
  text := isText
  escapable c := c.val ≤ 127

def skipSpace (s : JsString) : JsString := s.dropWhile isSpace

def token? (s : JsString) : Option (JsString × JsString) :=
  if s.takeWhile isTokenChar = [] then none
  else some (s.takeWhile isTokenChar, s.dropWhile isTokenChar)

/-- A separator and the white space around it. -/
def separator? (c : CodeUnit) (s : JsString) : Option JsString :=
  match skipSpace s with
  | [] => none
  | d :: s => if d = c then some (skipSpace s) else none

/-- `value = token | quoted-string`. -/
def value? : JsString → Option (JsString × JsString)
  | [] => none
  | c :: s => if c = 34 then unquote quotedString s else token? (c :: s)

/-- `token "=" value`. -/
def parameter? (s : JsString) : Option ((JsString × JsString) × JsString) :=
  (token? s).bind fun name => (separator? 61 name.2).bind fun s =>
    (value? s).map fun value => ((name.1, value.1), value.2)

theorem length_skipSpace_le (s : JsString) : (skipSpace s).length ≤ s.length :=
  (List.dropWhile_sublist _).length_le

theorem length_of_token? {s t rest : JsString} (h : token? s = some (t, rest)) :
    rest.length < s.length := by
  unfold token? at h
  split at h
  · cases h
  · rename_i hne
    obtain ⟨-, rfl⟩ := Prod.mk.inj (Option.some.inj h)
    have hpos : 0 < (s.takeWhile isTokenChar).length := List.length_pos_iff.2 hne
    have hparts : s.takeWhile isTokenChar ++ s.dropWhile isTokenChar = s :=
      List.takeWhile_append_dropWhile
    have hlength := congrArg List.length hparts
    rw [List.length_append] at hlength
    omega

theorem length_of_separator? {c : CodeUnit} {s rest : JsString} (h : separator? c s = some rest) :
    rest.length < s.length := by
  have hle := length_skipSpace_le s
  unfold separator? at h
  cases hs : skipSpace s with
  | nil =>
      rw [hs] at h
      cases h
  | cons d s' =>
      rw [hs] at h hle
      have hrest := length_skipSpace_le s'
      rw [List.length_cons] at hle
      dsimp only at h
      split at h
      · obtain rfl := Option.some.inj h
        omega
      · cases h

theorem length_of_value? {s v rest : JsString} (h : value? s = some (v, rest)) :
    rest.length < s.length := by
  cases s with
  | nil => cases h
  | cons c s =>
      rw [value?] at h
      split at h
      · have hle := length_of_unquote h
        rw [List.length_cons]
        omega
      · exact length_of_token? h

theorem length_of_parameter? {s rest : JsString} {p : JsString × JsString}
    (h : parameter? s = some (p, rest)) : rest.length < s.length := by
  obtain ⟨⟨name, s₁⟩, hname, h⟩ := Option.bind_eq_some_iff.1 h
  obtain ⟨s₂, hseparator, h⟩ := Option.bind_eq_some_iff.1 h
  obtain ⟨⟨v, s₃⟩, hvalue, h⟩ := Option.map_eq_some_iff.1 h
  obtain ⟨-, rfl⟩ := Prod.mk.inj h
  exact (length_of_value? hvalue).trans
    ((length_of_separator? hseparator).trans (length_of_token? hname))

/-- `*( ";" token "=" value )`, up to the end. -/
def parameters? (s : JsString) : Option (List (JsString × JsString)) :=
  match _ : separator? 59 s with
  | none => if skipSpace s = [] then some [] else none
  | some s' =>
      match _ : parameter? s' with
      | none => none
      | some (p, rest) => (parameters? rest).map (p :: ·)
termination_by s.length
decreasing_by
  exact (length_of_parameter? ‹_›).trans (length_of_separator? ‹_›)

/-- `disposition-type *( ";" disposition-parm )`. -/
def disposition? (s : JsString) : Option Disposition :=
  (token? s).bind fun type => (parameters? type.2).map fun parameters => ⟨type.1, parameters⟩

/-! ### Reading what was written -/

theorem token?_append {t : JsString} (ht : t ≠ []) (hall : t.all isTokenChar = true)
    {c : CodeUnit} (hc : isTokenChar c = false) (s : JsString) :
    token? (t ++ c :: s) = some (t, c :: s) := by
  have h : ∀ d ∈ t, isTokenChar d = true := List.all_eq_true.1 hall
  have htake : (t ++ c :: s).takeWhile isTokenChar = t := by
    rw [List.takeWhile_append_of_pos h, List.takeWhile_cons_of_neg (by simp [hc]), List.append_nil]
  have hdrop : (t ++ c :: s).dropWhile isTokenChar = c :: s := by
    rw [List.dropWhile_append_of_pos h, List.dropWhile_cons_of_neg (by simp [hc])]
  rw [token?, htake, hdrop, if_neg ht]

theorem skipSpace_cons {c : CodeUnit} (hc : isSpace c = false) (s : JsString) :
    skipSpace (c :: s) = c :: s :=
  List.dropWhile_cons_of_neg (by simp [hc])

theorem separator?_cons {c : CodeUnit} (hc : isSpace c = false) (s : JsString) :
    separator? c (c :: s) = some (skipSpace s) := by
  rw [separator?, skipSpace_cons hc]
  exact if_pos rfl

/-- The header `presignDownload` builds. -/
def attachment (fileName : JsString) : JsString :=
  js "attachment; filename=\"" ++ fileName ++ js "\""

theorem parameter?_filename (fileName : JsString) :
    parameter? (js "filename" ++ 61 :: 34 :: (fileName ++ [34])) =
      (unquote quotedString (fileName ++ [34])).map fun p => ((js "filename", p.1), p.2) := by
  rw [parameter?, token?_append (by decide) (by decide) (by decide), Option.bind_some,
    separator?_cons (by decide), skipSpace_cons (by decide), Option.bind_some, value?, if_pos rfl]

theorem parameters?_nil : parameters? [] = some [] := by
  rw [parameters?]
  rfl

theorem parameters?_of_separator {s s' : JsString} (h : separator? 59 s = some s') :
    parameters? s = (parameter? s').bind fun p => (parameters? p.2).map (p.1 :: ·) := by
  rw [parameters?]
  split
  · rename_i hnone
    rw [h] at hnone
    cases hnone
  · rename_i s'' hsome
    obtain rfl : s' = s'' := Option.some.inj (h.symm.trans hsome)
    split
    · rename_i hnone
      rw [hnone]
      rfl
    · rename_i p rest hp
      rw [hp]
      rfl

/-- Nothing but a semicolon may follow a parameter. -/
theorem parameters?_eq_none {s : JsString} (h : separator? 59 s = none) (hs : skipSpace s ≠ []) :
    parameters? s = none := by
  rw [parameters?]
  split
  · exact if_neg hs
  · rename_i s' hsome
    rw [h] at hsome
    cases hsome

/-- The file name is read as a quoted string, and the rest of the header as more parameters. -/
theorem disposition?_attachment (fileName : JsString) :
    disposition? (attachment fileName) =
      (unquote quotedString (fileName ++ [34])).bind fun p =>
        (parameters? p.2).map fun parameters =>
          ⟨js "attachment", (js "filename", p.1) :: parameters⟩ := by
  have hparts : attachment fileName =
      js "attachment" ++ 59 :: 32 :: (js "filename" ++ 61 :: 34 :: (fileName ++ [34])) := by
    have hliteral : js "attachment; filename=\"" =
        js "attachment" ++ 59 :: 32 :: (js "filename" ++ [61, 34]) := by decide
    have hquote : js "\"" = [34] := by decide
    rw [attachment, hliteral, hquote]
    simp only [List.append_assoc, List.cons_append, List.nil_append]
  have hspace : skipSpace (32 :: (js "filename" ++ 61 :: 34 :: (fileName ++ [34]))) =
      js "filename" ++ 61 :: 34 :: (fileName ++ [34]) := by
    have hletters : js "filename" = 102 :: js "ilename" := by decide
    rw [hletters, List.cons_append, skipSpace, List.dropWhile_cons_of_pos (by decide),
      List.dropWhile_cons_of_neg (by decide)]
  rw [hparts, disposition?, token?_append (by decide) (by decide) (by decide), Option.bind_some,
    parameters?_of_separator (separator?_cons (by decide) _), hspace, parameter?_filename]
  cases unquote quotedString (fileName ++ [34]) with
  | none => rfl
  | some p =>
      cases hrest : parameters? p.2 with
      | none => simp [hrest]
      | some parameters => simp [hrest]

/-- **Which names are read back**: those whose characters are plain in a quoted string. -/
theorem disposition?_attachment_iff (fileName : JsString) :
    disposition? (attachment fileName) = some ⟨js "attachment", [(js "filename", fileName)]⟩ ↔
      ∀ c ∈ fileName, quotedString.Plain c := by
  rw [disposition?_attachment]
  constructor
  · intro h
    obtain ⟨⟨name, rest⟩, hread, h⟩ := Option.bind_eq_some_iff.1 h
    obtain ⟨parameters, hrest, h⟩ := Option.map_eq_some_iff.1 h
    obtain ⟨hname, -⟩ := List.cons.inj (congrArg Disposition.parameters h)
    obtain rfl : name = fileName := congrArg Prod.snd hname
    exact plain_of_unquote hread
  · intro h
    have hread : unquote quotedString (fileName ++ [34]) = some (fileName, []) :=
      unquote_of_plain h []
    rw [hread, Option.bind_some, parameters?_nil]
    rfl

end ContentDisposition

open ContentDisposition

/-- No character of the name has a meaning of its own in a quoted string: each is a tab or a
printable one of ISO-8859-1, and neither `"` nor a backslash. -/
def PlainName (fileName : JsString) : Prop :=
  ∀ c ∈ fileName, (c = 9 ∨ (32 ≤ c.val ∧ c.val ≤ 126) ∨ (128 ≤ c.val ∧ c.val ≤ 255)) ∧
    c ≠ 34 ∧ c ≠ 92

instance (fileName : JsString) : Decidable (PlainName fileName) := List.decidableBAll _ _

theorem plainName_iff {fileName : JsString} :
    PlainName fileName ↔ ∀ c ∈ fileName, quotedString.Plain c := by
  have hplain : ∀ c, isText c = true ↔
      c = 9 ∨ (32 ≤ c.val ∧ c.val ≤ 126) ∨ (128 ≤ c.val ∧ c.val ≤ 255) := by
    intro c
    simp [isText, or_assoc]
  refine forall₂_congr fun c _ => ?_
  rw [← hplain]
  exact Iff.rfl

theorem presignDownload_attachment {fileName : JsString} (hname : fileNameAccepted fileName)
    (key : JsString) :
    (StorageService.presignDownload key (some fileName)).responseContentDisposition =
      some (attachment fileName) := by
  have hne : fileName ≠ [] := List.length_pos_iff.1 hname.1
  have htruthy : truthy (some fileName) = some fileName := by
    rw [truthy, Option.filter_some, if_pos (decide_eq_true hne)]
  rw [StorageService.presignDownload, htruthy]
  rfl

/-- **The header says what the file name is exactly when the name is plain.**  For every name that
`confirmAttachmentSchema` accepts: the header `presignDownload` builds is read as an attachment with
the file name as its only parameter exactly when the name is plain. -/
theorem presignDownload_disposition_iff {fileName : JsString} (hname : fileNameAccepted fileName)
    (key : JsString) :
    (∃ value, (StorageService.presignDownload key (some fileName)).responseContentDisposition =
        some value ∧
      disposition? value = some ⟨js "attachment", [(js "filename", fileName)]⟩) ↔
      PlainName fileName := by
  rw [plainName_iff, ← disposition?_attachment_iff, presignDownload_attachment hname]
  constructor
  · rintro ⟨value, hvalue, h⟩
    rwa [← Option.some.inj hvalue] at h
  · exact fun h => ⟨_, rfl, h⟩

/-! ### Quotation marks in a name -/

namespace ContentDisposition.Samples

def fileKey : JsString := js "org/corg/issues/cissue/report"

def plainName : JsString := js "report (final); v2.pdf"

def quotedName : JsString := js "report \"final\".pdf"

end ContentDisposition.Samples

open ContentDisposition.Samples in
theorem presignDownload_disposition_plain :
    ∃ value, (StorageService.presignDownload fileKey (some plainName)).responseContentDisposition =
        some value ∧
      disposition? value = some ⟨js "attachment", [(js "filename", plainName)]⟩ :=
  (presignDownload_disposition_iff ⟨by decide, by decide⟩ fileKey).2 (by decide)

open ContentDisposition.Samples in
/-- The first quotation mark of the name ends the quoted string, and what follows it is no
parameter. -/
theorem quoted_name_unreadable :
    fileNameAccepted quotedName ∧
    (StorageService.presignDownload fileKey (some quotedName)).responseContentDisposition =
      some (js "attachment; filename=\"report \"final\".pdf\"") ∧
    disposition? (js "attachment; filename=\"report \"final\".pdf\"") = none ∧
    ¬∃ value,
      (StorageService.presignDownload fileKey (some quotedName)).responseContentDisposition =
        some value ∧
      disposition? value = some ⟨js "attachment", [(js "filename", quotedName)]⟩ := by
  have hname : fileNameAccepted quotedName := ⟨by decide, by decide⟩
  have hheader : attachment quotedName = js "attachment; filename=\"report \"final\".pdf\"" := by
    decide
  have hread : unquote quotedString (quotedName ++ [34]) =
      some (js "report ", js "final\".pdf\"") := by
    have hparts : quotedName ++ [34] = js "report " ++ 34 :: js "final\".pdf\"" := by decide
    have hplain : PlainName (js "report ") := by decide
    rw [hparts]
    exact unquote_of_plain (plainName_iff.1 hplain) _
  have hnone : disposition? (attachment quotedName) = none := by
    rw [disposition?_attachment, hread, Option.bind_some,
      parameters?_eq_none (by decide) (by decide)]
    rfl
  rw [presignDownload_attachment hname, ← hheader]
  refine ⟨hname, rfl, hnone, ?_⟩
  rintro ⟨value, hvalue, h⟩
  rw [← Option.some.inj hvalue, hnone] at h
  cases h

end PmSaas
