import FleetDeploy.Proofs.Text.Numeral
import FleetDeploy.Proofs.Yaml.Character
import FleetDeploy.Yaml.Printer
import FleetDeploy.Yaml.Scalar.Quoted
import Mathlib.Data.List.Basic

/-!
# What is written shows

Whatever a text holds, only characters that show are written for it, so what is written
can be read and its line breaks stay what they are.  The style of a text is chosen by what
the text holds; `Fits` says what may be relied on in each of them.
-/

namespace FleetDeploy.Yaml

namespace Printer

/-! ## Styles -/

/-- What may be relied on for a text in a style. -/
inductive Fits : List Char → Style → Prop
  | plain {c : Char} {rest : List Char} (shows : Printable (c :: rest))
      (oneLine : ∀ d ∈ c :: rest, isBreak d = false) (first : c ≠ ' ')
      (last : (c :: rest).getLast? ≠ some ' ') (opens : opensStructure (c :: rest) = false)
      (holds : holdsStructure c rest = false) : Fits (c :: rest) .plain
  | single {text : List Char} (shows : Printable text) (unbroken : '\n' ∉ text)
      (before : adjoins isSpace isBreak text = false)
      (behind : adjoins isBreak isSpace text = false) : Fits text .single
  | double (text : List Char) : Fits text .double
  | literal {text : List Char} (shows : Printable text) (broken : '\n' ∈ text) :
      Fits text .literal

theorem adjoins_cons_eq_false_iff {p q : Char → Bool} {c : Char} {text : List Char} :
    adjoins p q (c :: text) = false ↔
      (p c = true → ∀ d ∈ text.head?, q d = false) ∧ adjoins p q text = false := by
  cases text with
  | nil => simp [adjoins]
  | cons d text => simp [adjoins]

theorem needsEscape_eq_false_iff {text : List Char} :
    needsEscape text = false ↔ Printable text ∧ adjoins isSpace isBreak text = false := by
  simp [needsEscape, Printable]

theorem Fits.of_allowsPlain {text : List Char} (allowed : allowsPlain text = true) :
    Fits text .plain := by
  cases text with
  | nil => cases allowed
  | cons c rest =>
      simp only [allowsPlain, Bool.and_eq_true, Bool.not_eq_true', decide_eq_true_eq,
        needsEscape_eq_false_iff, List.any_eq_false, Bool.not_eq_true] at allowed
      obtain ⟨⟨⟨⟨⟨⟨shows, -⟩, oneLine⟩, first⟩, last⟩, opens⟩, holds⟩ := allowed
      exact .plain shows oneLine first last opens holds

theorem Fits.of_allowsSingle {text : List Char} (unbroken : '\n' ∉ text)
    (allowed : allowsSingle text = true) : Fits text .single := by
  simp only [allowsSingle, Bool.and_eq_true, Bool.not_eq_true', needsEscape_eq_false_iff] at allowed
  exact .single allowed.1.1 unbroken allowed.1.2 allowed.2

theorem Fits.of_allowsLiteral {text : List Char} (broken : '\n' ∈ text)
    (allowed : allowsLiteral text = true) : Fits text .literal := by
  simp only [allowsLiteral, Bool.and_eq_true, Bool.not_eq_true', needsEscape_eq_false_iff]
    at allowed
  exact .literal allowed.1.1 broken

theorem fits_styleOf (text : List Char) : Fits text (styleOf text) := by
  rw [styleOf]
  split_ifs with broken literal plain single
  · exact .of_allowsLiteral broken literal
  · exact .double text
  · exact .of_allowsPlain (Bool.and_eq_true _ _ ▸ plain).1
  · exact .of_allowsSingle broken single
  · exact .double text

/-! ## What is written -/

theorem isWordChar_digit {n : Nat} (small : n < 16) : isWordChar (digit n) = true := by
  have all : ∀ n : Fin 16, isWordChar (digit n) = true := by decide
  exact all ⟨n, small⟩

theorem isWord_digits (places n : Nat) : IsWord (digits places n) := by
  induction places generalizing n with
  | zero => exact nofun
  | succ places ih =>
      intro c member
      rcases List.mem_append.mp member with inFront | last
      · exact ih _ c inFront
      · rw [List.mem_singleton.mp last]
        exact isWordChar_digit (Nat.mod_lt _ (by decide))

/-- A letter is printed for a character only if it is read as that character. -/
theorem letter?_eq_some {c letter : Char} (written : letter? c = some letter) :
    isPrintable letter = true ∧ isBreak letter = false ∧ Quoted.digitCount? letter = none ∧
      Quoted.escaped? letter = some c := by
  unfold letter? at written
  split at written <;> cases written <;> decide

theorem printable_escape (c : Char) : Printable (escape c) := by
  have escaped (mark : Char) (visible : isPrintable mark = true) (places : Nat) :
      Printable ('\\' :: mark :: digits places c.toNat) := by
    simp only [printable_cons_iff]
    exact ⟨by decide, visible, (isWord_digits places c.toNat).printable⟩
  rw [escape]
  split
  next letter written =>
    simp only [printable_cons_iff, (letter?_eq_some written).1]
    exact ⟨by decide, trivial, printable_nil⟩
  next =>
    split_ifs with visible
    · simp [visible]
    · exact escaped 'x' (by decide) 2
    · exact escaped 'u' (by decide) 4
    · exact escaped 'U' (by decide) 8

theorem printable_singleBody {begins : Bool} {text : List Char} (shows : Printable text) :
    Printable (singleBody begins text) := by
  have space : isPrintable ' ' = true := by decide
  have feed : isPrintable '\n' = true := by decide
  have quote : isPrintable '\'' = true := by decide
  induction text generalizing begins with
  | nil => cases begins <;> simp [singleBody, margin, space]
  | cons c rest ih =>
      rw [printable_cons_iff] at shows
      rw [singleBody]
      split_ifs <;> simp [margin, shows.1, ih shows.2, space, feed, quote]

theorem printable_literalBody {begins : Bool} {text : List Char} (shows : Printable text) :
    Printable (literalBody begins text) := by
  have space : isPrintable ' ' = true := by decide
  induction text generalizing begins with
  | nil => simp [literalBody]
  | cons c rest ih =>
      rw [printable_cons_iff] at shows
      rw [literalBody]
      split_ifs <;> simp [margin, shows.1, ih shows.2, space]

theorem printable_literalHeader (text : List Char) : Printable (literalHeader text) := by
  have two : isPrintable '2' = true := by decide
  have minus : isPrintable '-' = true := by decide
  have plus : isPrintable '+' = true := by decide
  rw [literalHeader, printable_append_iff]
  constructor
  · split_ifs <;> simp [two]
  · split
    · simp [minus]
    · split_ifs <;> simp [minus, plus]
    · split_ifs <;> simp [minus, plus]

theorem Fits.printable_render {text : List Char} {style : Style} (fits : Fits text style) :
    Printable (render text style) := by
  cases fits with
  | plain shows => exact shows
  | single shows =>
      simp [render, printable_singleBody shows]
      decide
  | double =>
      have inside : Printable (text.flatMap escape) := by
        intro c member
        obtain ⟨d, -, inside⟩ := List.mem_flatMap.mp member
        exact printable_escape d c inside
      simp [render, inside]
      decide
  | literal shows =>
      simp [render, printable_literalHeader, printable_literalBody shows]
      decide

theorem isWordChar_of_isDigit {c : Char} (digit : Text.Numeral.isDigit c = true) :
    isWordChar c = true := by
  have apart : c ≠ '-' := by
    rintro rfl
    cases digit
  simp only [Text.Numeral.isDigit] at digit
  simp [isWordChar, isNameChar, digit, apart]

theorem isWord_toDigits (n : Nat) : IsWord (Nat.toDigits 10 n) :=
  fun _ member => isWordChar_of_isDigit (Text.Numeral.isDigit_of_mem_render member)

theorem printable_item (value : Item) : Printable (item value) := by
  cases value with
  | text t => exact (fits_styleOf t.toList).printable_render
  | count n => exact (isWord_toDigits n.toNat).printable

theorem printable_field {key : String} (word : IsWord key.toList) (value : Item) :
    Printable (field key value) := by
  have line : Printable (key.toList ++ ':' :: ' ' :: item value) := by
    simp [word.printable, printable_item]
    decide
  simp only [field]
  split_ifs
  · exact line
  · rw [printable_append_iff]
    exact ⟨line, by simp; decide⟩

theorem printable_record {fields : List (String × Item)}
    (words : ∀ field ∈ fields, IsWord field.1.toList) : Printable (record fields) := by
  intro c member
  obtain ⟨⟨key, value⟩, inside, member⟩ := List.mem_flatMap.mp member
  exact printable_field (words _ inside) value c member

/-! ## Ends of lines -/

/-- What is written behind a text to end its last line, unless a break in it does. -/
def lineEnd (text : List Char) : List Char :=
  if text.getLast?.any isBreak then [] else ['\n']

theorem lineEnd_break {text : List Char} {c : Char} (ends : isBreak c = true) :
    lineEnd (text ++ [c]) = [] := by
  simp [lineEnd, ends]

theorem lineEnd_char {text : List Char} {c : Char} (stays : isBreak c = false) :
    lineEnd (text ++ [c]) = ['\n'] := by
  simp [lineEnd, stays]

/-- The end of a line is that of its last part. -/
theorem lineEnd_append {text : List Char} (nonempty : text ≠ []) (front : List Char) :
    lineEnd (front ++ text) = lineEnd text := by
  rw [lineEnd, lineEnd, List.getLast?_append_of_ne_nil front nonempty]

theorem lineEnd_of_oneLine {text : List Char} (oneLine : ∀ c ∈ text, isBreak c = false) :
    lineEnd text = ['\n'] := by
  rw [lineEnd, if_neg]
  cases last : text.getLast? with
  | none => simp
  | some c => simp [oneLine c (List.mem_of_getLast? last)]

theorem getLast?_literalBody (begins : Bool) (text : List Char) :
    (literalBody begins text).getLast? = text.getLast? := by
  induction text generalizing begins with
  | nil => rfl
  | cons c rest ih =>
      rw [literalBody]
      split_ifs <;> simp only [List.getLast?_append_cons, List.nil_append, List.getLast?_cons, ih]

/-- Indented lines end as their text does. -/
theorem lineEnd_literal {text : List Char} (nonempty : text ≠ []) (header : List Char) :
    lineEnd (header ++ '\n' :: literalBody true text) = lineEnd text := by
  rw [lineEnd, lineEnd, List.getLast?_append_cons, List.getLast?_cons, getLast?_literalBody]
  cases last : text.getLast? with
  | none => exact absurd (List.getLast?_eq_none_iff.mp last) nonempty
  | some c => rfl

theorem field_eq (key : String) (value : Item) :
    field key value =
      (key.toList ++ ':' :: ' ' :: item value) ++
        lineEnd (key.toList ++ ':' :: ' ' :: item value) := by
  rw [field, lineEnd]
  split_ifs with ends
  · rw [List.append_nil]
  · rfl

end Printer

end FleetDeploy.Yaml
