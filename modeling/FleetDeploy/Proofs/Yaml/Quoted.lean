import FleetDeploy.Proofs.Yaml.Printer
import Mathlib.Tactic.Ring

/-!
# Quoted scalars are read back

A text that is written between quotes is read back from there.  Between single quotes a
text may hold the separators that break lines: the margin of the next line vanishes when
it is read.  Between double quotes all that breaks lines is escaped.
-/

namespace FleetDeploy.Yaml.Quoted

open Printer

variable {gap : Gap} {place : Position} {c : Char} {rest tail : List Char}

/-! ## Single quotes -/

theorem single?_space : single? gap place (' ' :: rest) =
    single? (gap.addBlank ' ') (place.after ' ') rest := by
  have apart : ' ' ≠ '\'' := by decide
  rw [single?, if_neg apart, if_pos (by decide)]
  exact fun _ same => absurd same apart

theorem single?_break (ends : isBreak c = true) : single? gap place (c :: rest) =
    single? (gap.addBreak c) (place.after c) rest := by
  have apart : c ≠ '\'' := by
    rintro rfl
    cases ends
  rw [single?, if_neg apart, if_neg (by simp [isBlank_of_isBreak ends]), if_pos ends]
  exact fun _ same => absurd same apart

theorem single?_char (inLine : 0 < place.column) (apart : c ≠ '\'') (visible : isBlank c = false)
    (stays : isBreak c = false) : single? gap place (c :: rest) =
      (single? .empty (place.after c) rest).map fun (text, cursor) =>
        (gap.joined ++ c :: text, cursor) := by
  have inside : place.column ≠ 0 := Nat.pos_iff_ne_zero.mp inLine
  rw [single?, if_neg apart, if_neg (by simp [visible]), if_neg (by simp [stays]),
    if_neg (by simp [inside])]
  exact fun _ same => absurd same apart

/-- What is held while a text is read from between single quotes, in front of the rest of the
text: blanks on one line, which no break follows, or kept breaks, which no space follows. -/
inductive Between (text : List Char) : Bool → Gap → Position → Prop
  | words {blanks : List Char} {place : Position} (inLine : 0 < place.column)
      (stays : blanks ≠ [] → ∀ c ∈ text.head?, isBreak c = false) :
      Between text false (.blanks blanks) place
  | lines {first : Char} {more : List Char} (place : Position) (kept : first ≠ '\n')
      (solid : ∀ c ∈ text.head?, c ≠ ' ') : Between text true (.lines first more) place

/-- A margin vanishes behind a break. -/
theorem single?_margin {first : Char} {more : List Char} :
    single? (.lines first more) place (margin ++ rest) =
      single? (.lines first more) ((place.after ' ').after ' ') rest := by
  rw [margin, List.cons_append, single?_space, List.cons_append, single?_space]
  rfl

/-- A break is taken into what is held and kept. -/
theorem Between.addBreak {text : List Char} {begins : Bool}
    (between : Between (c :: text) begins gap place) (ends : isBreak c = true) (kept : c ≠ '\n')
    (solid : ∀ d ∈ text.head?, d ≠ ' ') :
    Between text true (gap.addBreak c) (place.after c) ∧
      (gap.addBreak c).joined = gap.joined ++ [c] := by
  cases between with
  | @words blanks _ inLine stays =>
      have none : blanks = [] := by
        by_contra some
        cases (stays some c rfl).symm.trans ends
      rw [none]
      exact ⟨.lines _ kept solid, if_neg kept⟩
  | lines _ first => exact ⟨.lines _ first solid, by simp [Gap.addBreak, Gap.joined, first]⟩

/-- A space is taken into what is held, unless a break is held. -/
theorem Between.addBlank {text : List Char} {begins : Bool}
    (between : Between (' ' :: text) begins gap place) {next : Position} (inLine : 0 < next.column)
    (stays : ∀ d ∈ text.head?, isBreak d = false) :
    Between text false (gap.addBlank ' ') next ∧
      (gap.addBlank ' ').joined = gap.joined ++ [' '] := by
  cases between with
  | words => exact ⟨.words inLine fun _ => stays, rfl⟩
  | lines _ _ solid => exact absurd rfl (solid ' ' rfl)

/-- In front of a word the margin vanishes, and what is held stays. -/
theorem Between.exists_word {text : List Char} {begins : Bool}
    (between : Between text begins gap place) :
    ∃ place', 0 < place'.column ∧ ∀ rest,
      single? gap place ((if begins then margin else []) ++ rest) = single? gap place' rest := by
  cases between with
  | words inLine => exact ⟨place, inLine, fun _ => rfl⟩
  | lines => exact ⟨_, Nat.succ_pos _, fun _ => single?_margin⟩

/-- What is written between single quotes for a character that is no line feed. -/
def written (begins : Bool) (c : Char) : List Char :=
  if isBreak c then [c]
  else (if begins then margin else []) ++ if c = '\'' then ['\'', '\''] else [c]

theorem singleBody_cons (kept : c ≠ '\n') (begins : Bool) (text : List Char) :
    singleBody begins (c :: text) = written begins c ++ singleBody (isBreak c) text := by
  rw [singleBody, written]
  cases isBreak c <;> simp [kept]

/-- One character is read: it goes to the text, or to what is held behind it. -/
theorem Between.exists_step {text : List Char} {begins : Bool}
    (between : Between (c :: text) begins gap place) (shows : isPrintable c = true)
    (kept : c ≠ '\n') (before : isSpace c = true → ∀ d ∈ text.head?, isBreak d = false)
    (behind : isBreak c = true → ∀ d ∈ text.head?, isSpace d = false) :
    ∃ gap' place' front, Between text (isBreak c) gap' place' ∧
      front ++ gap'.joined = gap.joined ++ [c] ∧
      ∀ rest, single? gap place (written begins c ++ rest) =
        (single? gap' place' rest).map fun read => (front ++ read.1, read.2) := by
  by_cases ends : isBreak c = true
  · have solid : ∀ d ∈ text.head?, d ≠ ' ' := by
      rintro d member rfl
      cases behind ends _ member
    obtain ⟨later, joined⟩ := between.addBreak ends kept solid
    refine ⟨_, _, [], ends ▸ later, joined, fun rest => ?_⟩
    simp [written, ends, single?_break]
  · have stays : isBreak c = false := by simpa using ends
    obtain ⟨place', inLine, moved⟩ := between.exists_word
    have fresh {next : Position} (inLine : 0 < next.column) :
        Between text (isBreak c) .empty next := by
      rw [stays]
      exact .words inLine fun some => absurd rfl some
    by_cases quote : c = '\''
    · subst quote
      refine ⟨.empty, (place'.after '\'').after '\'', gap.joined ++ ['\''], fresh (Nat.succ_pos _),
        List.append_nil _, fun rest => ?_⟩
      rw [written, if_neg ends, if_pos rfl, List.append_assoc, moved, List.cons_append,
        List.singleton_append, single?_quote]
      simp
    · have single (rest : List Char) : single? gap place (written begins c ++ rest) =
          single? gap place' (c :: rest) := by
        rw [written, if_neg ends, if_neg quote, List.append_assoc, moved, List.singleton_append]
      by_cases space : c = ' '
      · subst space
        obtain ⟨later, joined⟩ :=
          between.addBlank (show 0 < (place'.after ' ').column from Nat.succ_pos _) (before rfl)
        refine ⟨_, _, [], stays ▸ later, joined, fun rest => ?_⟩
        rw [single, single?_space]
        simp
      · refine ⟨.empty, ⟨place'.line, place'.column + 1⟩, gap.joined ++ [c],
          fresh (Nat.succ_pos _), List.append_nil _, fun rest => ?_⟩
        rw [single, single?_char inLine quote (isBlank_of_isPrintable shows space) stays,
          Position.after_of_not_break stays]
        simp

/-- The rest of a text is read from between single quotes, behind what is held. -/
theorem single?_body {text : List Char} {begins : Bool} (between : Between text begins gap place)
    (shows : Printable text) (unbroken : '\n' ∉ text)
    (before : adjoins isSpace isBreak text = false)
    (behind : adjoins isBreak isSpace text = false) (other : tail.head? ≠ some '\'') :
    ∃ place', single? gap place (singleBody begins text ++ '\'' :: tail) =
      some (gap.joined ++ text, ⟨place', tail⟩) := by
  induction text generalizing begins gap place with
  | nil =>
      -- Behind a break at the end of the text the closing quote has a margin, too.
      obtain ⟨place', -, moved⟩ := between.exists_word
      rw [List.append_nil, singleBody, moved]
      exact ⟨_, single?_close other⟩
  | cons c text ih =>
      rw [printable_cons_iff] at shows
      rw [List.mem_cons, not_or] at unbroken
      rw [adjoins_cons_eq_false_iff] at before behind
      have kept : c ≠ '\n' := Ne.symm unbroken.1
      obtain ⟨gap', place', front, later, joined, step⟩ :=
        between.exists_step shows.1 kept before.1 behind.1
      obtain ⟨final, read⟩ := ih later shows.2 unbroken.2 before.2 behind.2
      refine ⟨final, ?_⟩
      rw [singleBody_cons kept, List.append_assoc, step, read, Option.map_some,
        ← List.append_assoc, joined, List.append_assoc, List.singleton_append]

/-! ## Double quotes -/

theorem double?_space : double? (.text gap) place (' ' :: rest) =
    double? (.text (gap.addBlank ' ')) (place.after ' ') rest := by
  simp [double?, isBlank]

theorem double?_char (inLine : 0 < place.column) (apart : c ≠ '"') (visible : isBlank c = false)
    (stays : isBreak c = false) (slash : c ≠ '\\') : double? (.text gap) place (c :: rest) =
      (double? (.text .empty) (place.after c) rest).map fun (text, cursor) =>
        (gap.joined ++ c :: text, cursor) := by
  have inside : place.column ≠ 0 := Nat.pos_iff_ne_zero.mp inLine
  simp [double?, apart, visible, stays, inside, slash]

theorem double?_backslash (inLine : 0 < place.column) :
    double? (.text gap) place ('\\' :: rest) =
      (double? .backslash (place.after '\\') rest).map fun (text, cursor) =>
        (gap.joined ++ text, cursor) := by
  have inside : place.column ≠ 0 := Nat.pos_iff_ne_zero.mp inLine
  simp [double?, isBlank, isBreak, inside]

theorem double?_letter {letter : Char} (stays : isBreak letter = false)
    (short : digitCount? letter = none) (meant : escaped? letter = some c) :
    double? .backslash place (letter :: rest) =
      (double? (.text .empty) (place.after letter) rest).map fun (text, cursor) =>
        (c :: text, cursor) := by
  simp [double?, stays, short, meant]

theorem double?_mark {mark : Char} {count : Nat} (stays : isBreak mark = false)
    (long : digitCount? mark = some count) :
    double? .backslash place (mark :: rest) =
      double? (.digits count 0) (place.after mark) rest := by
  simp [double?, stays, long]

theorem hexDigit?_digit {n : Nat} (small : n < 16) : hexDigit? (digit n) = some n := by
  have all : ∀ n : Fin 16, hexDigit? (digit n) = some n.val := by decide
  exact all ⟨n, small⟩

/-- A digit of an escape that is not the last adds to the value. -/
theorem double?_digit {left value n : Nat} (small : n < 16) :
    double? (.digits (left + 2) value) place (digit n :: rest) =
      double? (.digits (left + 1) (value * 16 + n)) (place.after (digit n)) rest := by
  simp [double?, hexDigit?_digit small]

/-- The last digit of an escape says which character it stands for. -/
theorem double?_lastDigit {value n : Nat} (small : n < 16) (meant : value * 16 + n = c.toNat) :
    double? (.digits 1 value) place (digit n :: rest) =
      (double? (.text .empty) (place.after (digit n)) rest).map fun (text, cursor) =>
        (c :: text, cursor) := by
  have valid : c.toNat.isValidChar := c.valid
  simp [double?, hexDigit?_digit small, meant, valid, Char.ofNat_toNat]

theorem after_digit {n : Nat} (small : n < 16) :
    place.after (digit n) = ⟨place.line, place.column + 1⟩ :=
  Position.after_of_not_break (isBreak_of_isWordChar (isWordChar_digit small)) place

/-- All but the last digits of an escape add to its value. -/
theorem double?_digits (place : Position) (places left value n : Nat) (rest : List Char) :
    ∃ place', place.column ≤ place'.column ∧
      double? (.digits (left + 1 + places) value) place (digits places n ++ rest) =
        double? (.digits (left + 1) (value * 16 ^ places + n % 16 ^ places)) place' rest := by
  induction places generalizing left n rest with
  | zero => exact ⟨place, Nat.le_refl _, by simp [digits, Nat.mod_one]⟩
  | succ places ih =>
      have small : n % 16 < 16 := Nat.mod_lt n (by decide)
      obtain ⟨place', further, read⟩ := ih (left + 1) (n / 16) (digit (n % 16) :: rest)
      have value_eq : (value * 16 ^ places + n / 16 % 16 ^ places) * 16 + n % 16 =
          value * 16 ^ (places + 1) + n % 16 ^ (places + 1) := by
        rw [Nat.pow_succ', Nat.mod_mul]
        ring
      refine ⟨⟨place'.line, place'.column + 1⟩, Nat.le_succ_of_le further, ?_⟩
      rw [digits, List.append_assoc, List.singleton_append, ← Nat.add_assoc, Nat.add_right_comm,
        read, double?_digit small, value_eq, after_digit small]

/-- An escape by digits stands for its character. -/
theorem double?_number {places : Nat} (fits : c.toNat < 16 ^ (places + 1)) (place : Position)
    (rest : List Char) :
    ∃ place', 0 < place'.column ∧
      double? (.digits (places + 1) 0) place (digits (places + 1) c.toNat ++ rest) =
        (double? (.text .empty) place' rest).map fun (text, cursor) => (c :: text, cursor) := by
  have small : c.toNat % 16 < 16 := Nat.mod_lt _ (by decide)
  obtain ⟨place', further, read⟩ := double?_digits place places 0 0 (c.toNat / 16)
    (digit (c.toNat % 16) :: rest)
  have high : c.toNat / 16 % 16 ^ places = c.toNat / 16 := by
    apply Nat.mod_eq_of_lt
    apply Nat.div_lt_of_lt_mul
    rw [← Nat.pow_succ']
    exact fits
  have meant : (0 * 16 ^ places + c.toNat / 16 % 16 ^ places) * 16 + c.toNat % 16 = c.toNat := by
    rw [high, Nat.zero_mul, Nat.zero_add, Nat.mul_comm, Nat.div_add_mod]
  refine ⟨⟨place'.line, place'.column + 1⟩, Nat.succ_pos _, ?_⟩
  rw [digits, List.append_assoc, List.singleton_append, Nat.add_comm places, read,
    double?_lastDigit small meant, after_digit small]

/-- A character that has no letter of its own and shows is no mark. -/
theorem double?_visible (inLine : 0 < place.column) (unwritten : letter? c = none)
    (visible : isPrintable c = true) (solid : c ≠ ' ') (rest : List Char) :
    ∃ place', 0 < place'.column ∧ double? (.text gap) place (c :: rest) =
      (double? (.text .empty) place' rest).map fun (text, cursor) =>
        (gap.joined ++ c :: text, cursor) := by
  have apart (d : Char) (written : (letter? d).isSome = true) : c ≠ d := by
    rintro rfl
    rw [unwritten] at written
    cases written
  have stays : isBreak c = false := by
    simp [isBreak, apart '\n' rfl, apart '\u2028' rfl, apart '\u2029' rfl]
  refine ⟨⟨place.line, place.column + 1⟩, Nat.succ_pos _, ?_⟩
  rw [double?_char inLine (apart '"' rfl) (isBlank_of_isPrintable visible solid) stays
    (apart '\\' rfl), Position.after_of_not_break stays]

/-- A character other than the space is read back from what is written for it. -/
theorem double?_escape (inLine : 0 < place.column) (solid : c ≠ ' ') (gap : Gap)
    (rest : List Char) :
    ∃ place', 0 < place'.column ∧ double? (.text gap) place (escape c ++ rest) =
      (double? (.text .empty) place' rest).map fun (text, cursor) =>
        (gap.joined ++ c :: text, cursor) := by
  have marked {mark : Char} {places : Nat} (stays : isBreak mark = false)
      (long : digitCount? mark = some (places + 1)) (fits : c.toNat < 16 ^ (places + 1)) :
      ∃ place', 0 < place'.column ∧
        double? (.text gap) place ('\\' :: mark :: digits (places + 1) c.toNat ++ rest) =
          (double? (.text .empty) place' rest).map fun (text, cursor) =>
            (gap.joined ++ c :: text, cursor) := by
    obtain ⟨place', further, read⟩ := double?_number fits ((place.after '\\').after mark) rest
    refine ⟨place', further, ?_⟩
    rw [List.cons_append, List.cons_append, double?_backslash inLine, double?_mark stays long, read,
      Option.map_map]
    rfl
  rw [escape]
  split
  next letter written =>
    obtain ⟨-, stays, short, meant⟩ := letter?_eq_some written
    refine ⟨⟨(place.after '\\').line, (place.after '\\').column + 1⟩, Nat.succ_pos _, ?_⟩
    rw [List.cons_append, List.cons_append, double?_backslash inLine,
      double?_letter stays short meant, Option.map_map, Position.after_of_not_break stays]
    rfl
  next unwritten =>
    split_ifs with visible byte pair
    · exact double?_visible inLine unwritten visible solid rest
    · exact marked rfl rfl (Nat.lt_succ_of_le byte)
    · exact marked rfl rfl (Nat.lt_succ_of_le pair)
    · exact marked rfl rfl c.val.toNat_lt

/-- The rest of a text is read from between double quotes, behind some blanks. -/
theorem double?_body (text blanks tail : List Char) (inLine : 0 < place.column) :
    ∃ place', double? (.text (.blanks blanks)) place (text.flatMap escape ++ '"' :: tail) =
      some (blanks ++ text, ⟨place', tail⟩) := by
  induction text generalizing blanks place with
  | nil =>
      rw [List.append_nil]
      exact ⟨_, double?_close⟩
  | cons c text ih =>
      rw [List.flatMap_cons, List.append_assoc]
      by_cases space : c = ' '
      · subst space
        have written : escape ' ' = [' '] := by decide
        obtain ⟨final, read⟩ := ih (blanks ++ [' '])
          (show 0 < (place.after ' ').column from Nat.succ_pos _)
        refine ⟨final, ?_⟩
        rw [written, List.singleton_append, double?_space, Gap.addBlank, read, List.append_assoc,
          List.singleton_append]
      · obtain ⟨place', further, escaped⟩ := double?_escape inLine space (.blanks blanks)
          (text.flatMap escape ++ '"' :: tail)
        obtain ⟨final, read⟩ := ih [] further
        refine ⟨final, ?_⟩
        rw [escaped, Gap.empty, read]
        rfl

end FleetDeploy.Yaml.Quoted
