import Mathlib.Data.List.Lex
import Mathlib.Data.List.DropRight
import Mathlib.Data.Nat.Digits.Lemmas
import Mathlib.Data.Fin.Basic
import Mathlib.Order.Fin.Basic

/-!
# JavaScript strings

A JavaScript string is a sequence of 16-bit code units; `<`, `startsWith` and `length` all work on
code units.  `JsString` is that sequence, its order is the lexicographic one, and `js` writes a
literal of the source as one (code points outside the basic plane become surrogate pairs).
-/

namespace PmSaas

/-- A UTF-16 code unit. -/
abbrev CodeUnit := Fin 65536

instance CodeUnit.neZero : NeZero 65536 := ⟨Nat.succ_ne_zero _⟩

/-- A JavaScript string. -/
abbrev JsString := List CodeUnit

instance JsString.lawfulBEq : LawfulBEq JsString := inferInstance

/-- The code units of one character. -/
def utf16 (c : Char) : JsString :=
  if c.toNat < 0x10000 then [Fin.ofNat _ c.toNat]
  else [Fin.ofNat _ (0xD800 + (c.toNat - 0x10000) / 0x400),
    Fin.ofNat _ (0xDC00 + (c.toNat - 0x10000) % 0x400)]

/-- A string literal of the source. -/
def js (s : String) : JsString := s.toList.flatMap utf16

namespace JsString

/-- `String.prototype.startsWith`. -/
def startsWith (s search : JsString) : Bool := search.isPrefixOf s

theorem startsWith_iff {s search : JsString} : startsWith s search = true ↔ search <+: s := by
  simp [startsWith]

/-- `String.prototype.endsWith`. -/
def endsWith (s search : JsString) : Bool := search.isSuffixOf s

theorem endsWith_iff {s search : JsString} : endsWith s search = true ↔ search <:+ s := by
  simp [endsWith]

/-- `c.toLowerCase()` for one code unit: the ASCII capitals, and the two units above ASCII whose
lower case contains an ASCII letter (U+0130 and U+212A).  All other units above ASCII lower to
units above ASCII; they are left as they are, since the code compares lower-cased text only
where it is ASCII (e-mails) or after everything outside `a-z0-9` is replaced (slugs). -/
def lowerUnit (c : CodeUnit) : JsString :=
  if 65 ≤ c.val ∧ c.val ≤ 90 then [Fin.ofNat _ (c.val + 32)]
  else if c.val = 0x130 then [105, 0x307]
  else if c.val = 0x212A then [107]
  else [c]

/-- `String.prototype.toLowerCase`. -/
def toLowerCase (s : JsString) : JsString := s.flatMap lowerUnit

theorem lowerUnit_flatMap (c : CodeUnit) : (lowerUnit c).flatMap lowerUnit = lowerUnit c := by
  by_cases hcap : 65 ≤ c.val ∧ c.val ≤ 90
  · have hval : (Fin.ofNat 65536 (c.val + 32)).val = c.val + 32 :=
      Nat.mod_eq_of_lt (by omega)
    rw [lowerUnit, if_pos hcap, List.flatMap_singleton, lowerUnit, hval, if_neg (by omega),
      if_neg (by omega), if_neg (by omega)]
  · rw [lowerUnit, if_neg hcap]
    split_ifs with hdot hkelvin
    · decide
    · decide
    · rw [List.flatMap_singleton, lowerUnit, if_neg hcap, if_neg hdot, if_neg hkelvin]

/-- Lower case stays as it is. -/
theorem toLowerCase_toLowerCase (s : JsString) : toLowerCase (toLowerCase s) = toLowerCase s := by
  rw [toLowerCase, toLowerCase, List.flatMap_assoc]
  exact List.flatMap_congr fun c _ => lowerUnit_flatMap c

/-- The code units `trim` removes: `WhiteSpace` and `LineTerminator`. -/
def isWhiteSpace (c : CodeUnit) : Bool :=
  (9 ≤ c.val && c.val ≤ 13) || c.val == 0x20 || c.val == 0xA0 || c.val == 0x1680 ||
    (0x2000 ≤ c.val && c.val ≤ 0x200A) || c.val == 0x2028 || c.val == 0x2029 ||
    c.val == 0x202F || c.val == 0x205F || c.val == 0x3000 || c.val == 0xFEFF

/-- `String.prototype.trim`. -/
def trim (s : JsString) : JsString := (s.dropWhile isWhiteSpace).rdropWhile isWhiteSpace

/-- `.replace(/[^…]+/g, r)` with a single code unit `r`: one `r` for each run of units outside the
class `keep`; `inRun` after a run's first unit. -/
def replaceRuns (keep : CodeUnit → Bool) (r : CodeUnit) (inRun : Bool) : JsString → JsString
  | [] => []
  | c :: s =>
      if keep c then c :: replaceRuns keep r false s
      else if inRun then replaceRuns keep r true s
      else r :: replaceRuns keep r true s

/-- What is left are units of the class and replacements. -/
theorem mem_replaceRuns {keep : CodeUnit → Bool} {r c : CodeUnit} {inRun : Bool} {s : JsString}
    (h : c ∈ replaceRuns keep r inRun s) : keep c = true ∨ c = r := by
  induction s generalizing inRun with
  | nil => cases h
  | cons d s ih =>
      rw [replaceRuns] at h
      split at h
      · rename_i hd
        obtain rfl | hs := List.mem_cons.1 h
        · exact .inl hd
        · exact ih hs
      · split at h
        · exact ih h
        · obtain rfl | hs := List.mem_cons.1 h
          · exact .inr rfl
          · exact ih hs

/-- A natural number in a template string. -/
def decimal (n : ℕ) : JsString :=
  if n = 0 then js "0" else (Nat.digits 10 n).reverse.map fun d => Fin.ofNat _ (48 + d)

/-- Different positive numbers are written differently. -/
theorem decimal_injective {m n : ℕ} (hm : m ≠ 0) (hn : n ≠ 0) (h : decimal m = decimal n) :
    m = n := by
  have hback : ∀ k : ℕ, ((Nat.digits 10 k).reverse.map fun d => (Fin.ofNat 65536 (48 + d))).map
      (fun c => c.val - 48) = (Nat.digits 10 k).reverse := by
    intro k
    rw [List.map_map]
    refine (List.map_congr_left fun d hd => ?_).trans (List.map_id _)
    have hlt : d < 10 := Nat.digits_lt_base (by omega) (List.mem_reverse.1 hd)
    simp only [Function.comp, Fin.ofNat, id]
    omega
  have hrev : (Nat.digits 10 m).reverse = (Nat.digits 10 n).reverse := by
    rw [decimal, if_neg hm, decimal, if_neg hn] at h
    rw [← hback m, ← hback n, h]
  exact Nat.digits_inj_iff.1 (List.reverse_injective hrev)

/-- The UTF-8 bytes of a code point. -/
def utf8Bytes (p : ℕ) : List ℕ :=
  if p < 0x80 then [p]
  else if p < 0x800 then [0xC0 + p / 0x40, 0x80 + p % 0x40]
  else if p < 0x10000 then [0xE0 + p / 0x1000, 0x80 + p / 0x40 % 0x40, 0x80 + p % 0x40]
  else [0xF0 + p / 0x40000 % 8, 0x80 + p / 0x1000 % 0x40, 0x80 + p / 0x40 % 0x40, 0x80 + p % 0x40]

/-- A surrogate with a low surrogate after it is one code point; any other unit is one by itself. -/
def utf8 : JsString → List ℕ
  | [] => []
  | [c] => utf8Bytes c.val
  | c :: d :: s =>
      if (0xD800 ≤ c.val ∧ c.val ≤ 0xDFFF) ∧ 0xDC00 ≤ d.val ∧ d.val ≤ 0xDFFF then
        utf8Bytes ((c.val - 0xD800) * 0x400 + (d.val - 0xDC00) + 0x10000) ++ utf8 s
      else utf8Bytes c.val ++ utf8 (d :: s)

end JsString

end PmSaas
