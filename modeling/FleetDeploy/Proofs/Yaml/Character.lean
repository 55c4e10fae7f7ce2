import FleetDeploy.Yaml.Cursor
import Mathlib.Tactic.Common

/-!
# Kinds of characters

Printable characters can be read and are not changed when line breaks are made uniform.
The characters of plain words are none of those that give a stream its structure.
-/

namespace FleetDeploy.Yaml

/-! ## Characters that show -/

/-- All characters of a text are printable. -/
def Printable (text : List Char) : Prop :=
  ∀ c ∈ text, isPrintable c = true

@[simp]
theorem printable_nil : Printable [] :=
  nofun

@[simp]
theorem printable_cons_iff {c : Char} {text : List Char} :
    Printable (c :: text) ↔ isPrintable c = true ∧ Printable text :=
  List.forall_mem_cons

@[simp]
theorem printable_append_iff {text rest : List Char} :
    Printable (text ++ rest) ↔ Printable text ∧ Printable rest :=
  List.forall_mem_append

theorem Printable.all_isReadable {text : List Char} (shows : Printable text) :
    text.all isReadable = true := by
  rw [List.all_eq_true]
  intro c member
  have visible := shows c member
  simp only [isPrintable, isReadable, Bool.or_eq_true, Bool.and_eq_true,
    decide_eq_true_eq] at visible ⊢
  omega

theorem Printable.uniformBreaks {text : List Char} (shows : Printable text) :
    uniformBreaks text = text := by
  fun_induction Yaml.uniformBreaks text with
  | case1 => rfl
  | case2 rest => exact absurd (shows '\r' (by simp)) (by decide)
  | case3 c rest _ ih =>
      rw [printable_cons_iff] at shows
      have plain : ¬(c = '\r' ∨ c = '\x85') := by
        rintro (rfl | rfl) <;> exact absurd shows.1 (by decide)
      rw [if_neg plain, ih shows.2]

/-! ## Characters of words -/

/-- The characters of plain words: letters, digits and the low line. -/
def isWordChar (c : Char) : Bool :=
  isNameChar c && c ≠ '-'

/-- A word character is none of the others. -/
theorem ne_of_isWordChar {c d : Char} (word : isWordChar c = true)
    (other : isWordChar d = false) : c ≠ d := by
  rintro rfl
  rw [word] at other
  cases other

theorem toNat_bounds_of_isWordChar {c : Char} (word : isWordChar c = true) :
    0x30 ≤ c.toNat ∧ c.toNat ≤ 0x7A := by
  have widen {low high : Char} (inside : low ≤ c ∧ c ≤ high) (above : 0x30 ≤ low.toNat)
      (below : high.toNat ≤ 0x7A) : 0x30 ≤ c.toNat ∧ c.toNat ≤ 0x7A :=
    ⟨Nat.le_trans above inside.1, Nat.le_trans inside.2 below⟩
  simp only [isWordChar, isNameChar, Bool.or_eq_true, Bool.and_eq_true, decide_eq_true_eq] at word
  obtain ⟨(((digit | upper) | lower) | rfl) | rfl, other⟩ := word
  · exact widen digit (by decide) (by decide)
  · exact widen upper (by decide) (by decide)
  · exact widen lower (by decide) (by decide)
  · decide
  · exact absurd rfl other

theorem isPrintable_of_isWordChar {c : Char} (word : isWordChar c = true) :
    isPrintable c = true := by
  have bounds := toNat_bounds_of_isWordChar word
  simp only [isPrintable, Bool.or_eq_true, Bool.and_eq_true, decide_eq_true_eq]
  omega

theorem isBreak_of_isWordChar {c : Char} (word : isWordChar c = true) : isBreak c = false := by
  simp [isBreak, ne_of_isWordChar word (d := '\n') rfl, ne_of_isWordChar word (d := '\u2028') rfl,
    ne_of_isWordChar word (d := '\u2029') rfl]

theorem isBlank_of_isWordChar {c : Char} (word : isWordChar c = true) : isBlank c = false := by
  simp [isBlank, ne_of_isWordChar word (d := ' ') rfl, ne_of_isWordChar word (d := '\t') rfl]

/-- All characters of a text are those of words. -/
def IsWord (text : List Char) : Prop :=
  ∀ c ∈ text, isWordChar c = true

theorem isWord_cons_iff {c : Char} {text : List Char} :
    IsWord (c :: text) ↔ isWordChar c = true ∧ IsWord text :=
  List.forall_mem_cons

theorem IsWord.printable {text : List Char} (word : IsWord text) : Printable text :=
  fun c member => isPrintable_of_isWordChar (word c member)

/-- Nothing follows, or a word does. -/
def WordFollows (rest : List Char) : Prop :=
  ∀ c ∈ rest.head?, isWordChar c = true

/-! ## Blanks, breaks and places -/

theorem isBlank_of_isBreak {c : Char} (ends : isBreak c = true) : isBlank c = false := by
  simp only [isBreak, Bool.or_eq_true, decide_eq_true_eq] at ends
  obtain (rfl | rfl) | rfl := ends <;> decide

theorem Position.after_of_break {c : Char} (ends : isBreak c = true) (place : Position) :
    place.after c = ⟨place.line + 1, 0⟩ :=
  if_pos ends

theorem Position.after_of_not_break {c : Char} (stays : isBreak c = false) (place : Position) :
    place.after c = ⟨place.line, place.column + 1⟩ :=
  if_neg (by simp [stays])

theorem isMarkerOf_of_ne {symbol c : Char} (apart : c ≠ symbol) {rest : List Char} :
    isMarkerOf symbol (c :: rest) = false := by
  unfold isMarkerOf
  split
  next start =>
    cases start
    simp [apart]
  next => rfl

theorem isBlank_of_isPrintable {c : Char} (shows : isPrintable c = true) (other : c ≠ ' ') :
    isBlank c = false := by
  have apart : c ≠ '\t' := by
    rintro rfl
    cases shows
  simp [isBlank, other, apart]

/-- A word ends at the end of a text if it ends at the end of the line. -/
theorem endsWord_append_lineEnd (text rest : List Char) :
    endsWord (text ++ '\n' :: rest) = endsWord text := by
  cases text <;> rfl

end FleetDeploy.Yaml
