import FleetDeploy.Proofs.Yaml.Printer
import FleetDeploy.Yaml.Scalar.Block

/-!
# Literal scalars are read back

A text that is written as indented lines is read back from them.  What becomes of the
breaks at the end is said by the header, and the header fits the end of the text.
-/

namespace FleetDeploy.Yaml.Block

open Printer

variable {chomping : Chomping} {lines : Lines} {place : Position} {line : Nat} {c : Char}
  {text rest : List Char} {blank : Bool}

/-! ## One character -/

/-- The breaks since the last line of text. -/
def Lines.held (lines : Lines) : List Char :=
  lines.ended.toList ++ lines.breaks

theorem lines?_space {column : Nat} (early : column < 2) :
    lines? true chomping 2 (.margin lines) ⟨line, column⟩ (' ' :: rest) =
      lines? true chomping 2 (.margin lines) ⟨line, column + 1⟩ rest := by
  rw [lines?, if_pos (by simp [early])]
  rfl

theorem lines?_margin :
    lines? true chomping 2 (.margin lines) ⟨line, 0⟩ (margin ++ rest) =
      lines? true chomping 2 (.margin lines) ⟨line, 2⟩ rest := by
  rw [margin, List.cons_append, lines?_space (by decide), List.singleton_append,
    lines?_space (by decide)]

/-- A line of text begins behind the margin. -/
theorem lines?_begin (stays : isBreak c = false) :
    lines? true chomping 2 (.margin lines) ⟨line, 0⟩ (margin ++ c :: rest) =
      (lines? true chomping 2 (.text (isBlank c)) ⟨line, 3⟩ rest).map fun (text, cursor) =>
        (lines.held ++ c :: text, cursor) := by
  rw [lines?_margin, lines?, if_neg (by simp), if_neg (by simp), if_neg (by simp [stays]),
    if_pos rfl, Position.after_of_not_break stays]
  rfl

theorem lines?_emptyLine (ends : isBreak c = true) :
    lines? true chomping 2 (.margin lines) ⟨line, 0⟩ (c :: rest) =
      lines? true chomping 2 (.margin { lines with breaks := lines.breaks ++ [c] }) ⟨line + 1, 0⟩
        rest := by
  have visible := isBlank_of_isBreak ends
  simp only [isBlank, Bool.or_eq_false_iff, decide_eq_false_iff_not] at visible
  rw [lines?, if_neg (by simp [visible]), if_neg (by simp [visible]), if_pos ends,
    Position.after_of_break ends]

theorem lines?_char (stays : isBreak c = false) :
    lines? true chomping 2 (.text blank) place (c :: rest) =
      (lines? true chomping 2 (.text blank) (place.after c) rest).map fun (text, cursor) =>
        (c :: text, cursor) := by
  rw [lines?, if_neg (by simp [stays])]

theorem lines?_break (ends : isBreak c = true) :
    lines? true chomping 2 (.text blank) place (c :: rest) =
      lines? true chomping 2 (.margin ⟨some c, blank, []⟩) ⟨place.line + 1, 0⟩ rest := by
  rw [lines?, if_pos ends, Position.after_of_break ends]

/-- A word at the margin is no line of the scalar. -/
theorem lines?_end (follows : WordFollows rest) :
    lines? true chomping 2 (.margin lines) ⟨line, 0⟩ rest =
      some (lines.ending chomping, ⟨⟨line, 0⟩, rest⟩) := by
  cases rest with
  | nil => exact lines?_nil
  | cons c rest =>
      have word : isWordChar c = true := follows c rfl
      rw [lines?, if_neg (by simp [ne_of_isWordChar word (d := ' ') rfl]),
        if_neg (by simp [ne_of_isWordChar word (d := '\t') rfl]),
        if_neg (by simp [isBreak_of_isWordChar word]), if_neg (by simp)]

/-! ## The end of a text -/

/-- What the header of a text says about the breaks at its end. -/
def chompingOf (text : List Char) : Chomping :=
  match text.reverse with
  | [] => .strip
  | [c] => if isBreak c then .keep else .strip
  | c :: d :: _ => if !isBreak c then .strip else if isBreak d then .keep else .clip

theorem chompingOf_char (stays : isBreak c = false) : chompingOf (text ++ [c]) = .strip := by
  rw [chompingOf, List.reverse_append, List.reverse_singleton, List.singleton_append]
  cases text.reverse <;> simp [stays]

theorem chompingOf_break (ends : isBreak c = true) :
    chompingOf (text ++ [c]) = if text.getLast?.any (!isBreak ·) then .clip else .keep := by
  rw [chompingOf, List.reverse_append, List.reverse_singleton, List.singleton_append,
    List.getLast?_eq_head?_reverse]
  cases text.reverse with
  | nil => simp [ends]
  | cons d _ => cases stays : isBreak d <;> simp [ends, stays]

/-- All of several breaks at the end are kept. -/
theorem chompingOf_breaks (ends : isBreak c = true)
    (also : ∀ d ∈ text.getLast?, isBreak d = true) : chompingOf (text ++ [c]) = .keep := by
  rw [chompingOf_break ends, if_neg]
  cases last : text.getLast? with
  | none => simp
  | some d => simp [also d last]

/-- Where a reader of a text is, behind a part of the text. -/
inductive Read : List Char → Mode → Position → Prop
  | empty {breaks : List Char} (blank : Bool) (line : Nat) (all : ∀ c ∈ breaks, isBreak c = true) :
      Read breaks (.margin ⟨none, blank, breaks⟩) ⟨line, 0⟩
  | line {done : List Char} {c : Char} (blank : Bool) (place : Position)
      (stays : isBreak c = false) : Read (done ++ [c]) (.text blank) place
  | ended {done : List Char} {c e : Char} {breaks : List Char} (blank : Bool) (line : Nat)
      (stays : isBreak c = false) (ends : isBreak e = true)
      (all : ∀ c ∈ breaks, isBreak c = true) :
      Read (done ++ c :: e :: breaks) (.margin ⟨some e, blank, breaks⟩) ⟨line, 0⟩

namespace Read

variable {done : List Char} {mode : Mode}

theorem emptyLine (read : Read done (.margin lines) place) (ends : isBreak c = true) (line : Nat) :
    Read (done ++ [c]) (.margin { lines with breaks := lines.breaks ++ [c] }) ⟨line, 0⟩ := by
  have extended {breaks : List Char} (all : ∀ c ∈ breaks, isBreak c = true) :
      ∀ d ∈ breaks ++ [c], isBreak d = true := by
    simpa [or_imp, forall_and, ends] using all
  cases read with
  | empty blank _ all => exact .empty blank line (extended all)
  | ended blank _ stays first all =>
      rw [List.append_assoc]
      exact .ended blank line stays first (extended all)

theorem broken (read : Read done (.text blank) place) (ends : isBreak c = true) (line : Nat) :
    Read (done ++ [c]) (.margin ⟨some c, blank, []⟩) ⟨line, 0⟩ := by
  cases read with
  | line _ _ stays =>
      rw [List.append_assoc]
      exact .ended blank line stays ends nofun

/-- A part of a text that ends at a margin ends with a break. -/
theorem isBreak_of_getLast? (read : Read done (.margin lines) place) :
    ∀ d ∈ done.getLast?, isBreak d = true := by
  intro d last
  cases read with
  | empty _ _ all => exact all d (List.mem_of_getLast? last)
  | ended _ _ _ ends all =>
      rw [List.getLast?_append_cons, List.getLast?_cons_cons] at last
      rcases List.mem_cons.mp (List.mem_of_getLast? last) with rfl | inside
      · exact ends
      · exact all d inside

/-- What ends at a margin has all its breaks, if it is written under its own header. -/
theorem ending_eq (read : Read done (.margin lines) place) (nonempty : done ≠ []) :
    lines.ending (chompingOf done) = lines.held := by
  cases read with
  | empty blank line all =>
      obtain ⟨front, last, rfl⟩ := (List.eq_nil_or_concat done).resolve_left nonempty
      rw [List.concat_eq_append, List.forall_mem_append] at all
      have before : Read front (.margin ⟨none, blank, front⟩) ⟨line, 0⟩ := .empty blank line all.1
      rw [List.concat_eq_append,
        chompingOf_breaks (all.2 last List.mem_cons_self) before.isBreak_of_getLast?]
      rfl
  | @ended done c e breaks blank line stays ends all =>
      rcases List.eq_nil_or_concat breaks with rfl | ⟨front, last, rfl⟩
      · rw [← List.singleton_append, ← List.append_assoc, chompingOf_break ends]
        simp [stays, Lines.ending, Lines.held]
      · rw [List.concat_eq_append, List.forall_mem_append] at all
        have before : Read (done ++ c :: e :: front) (.margin ⟨some e, blank, front⟩) ⟨line, 0⟩ :=
          .ended blank line stays ends all.1
        rw [List.concat_eq_append, ← List.cons_append, ← List.cons_append, ← List.append_assoc,
          chompingOf_breaks (all.2 last List.mem_cons_self) before.isBreak_of_getLast?]
        rfl

theorem lineEnd_eq (read : Read done (.margin lines) place) (nonempty : done ≠ []) :
    lineEnd done = [] := by
  obtain ⟨front, last, rfl⟩ := (List.eq_nil_or_concat done).resolve_left nonempty
  rw [List.concat_eq_append] at read ⊢
  exact lineEnd_break (read.isBreak_of_getLast? last (by simp))

theorem exists_line (read : Read done (.margin lines) place) : ∃ line, place = ⟨line, 0⟩ := by
  cases read with
  | empty _ line => exact ⟨line, rfl⟩
  | ended _ line => exact ⟨line, rfl⟩

theorem lineEnd_of_text (read : Read done (.text blank) place) : lineEnd done = ['\n'] := by
  cases read with
  | line _ _ stays => exact lineEnd_char stays

theorem chompingOf_eq (read : Read done (.text blank) place) : chompingOf done = .strip := by
  cases read with
  | line _ _ stays => exact chompingOf_char stays

end Read

/-- Whether a reader is at the start of a line. -/
def Mode.begins : Mode → Bool
  | .margin _ => true
  | .text _ => false

/-- The breaks that a reader holds. -/
def Mode.held : Mode → List Char
  | .margin lines => lines.held
  | .text _ => []

/-- What is written for a character on the lines of a text. -/
def written (begins : Bool) (c : Char) : List Char :=
  if isBreak c then [c] else (if begins then margin else []) ++ [c]

theorem literalBody_cons (begins : Bool) (c : Char) (text : List Char) :
    literalBody begins (c :: text) = written begins c ++ literalBody (isBreak c) text := by
  rw [literalBody, written]
  cases isBreak c <;> simp

/-- One character is read: it goes to the text, or to the breaks that are held behind it. -/
theorem Read.exists_step {done : List Char} {mode : Mode} (read : Read done mode place) (c : Char) :
    ∃ mode' place' front, Read (done ++ [c]) mode' place' ∧ mode'.begins = isBreak c ∧
      front ++ mode'.held = mode.held ++ [c] ∧
      ∀ chomping rest, lines? true chomping 2 mode place (written mode.begins c ++ rest) =
        (lines? true chomping 2 mode' place' rest).map fun read => (front ++ read.1, read.2) := by
  by_cases ends : isBreak c = true
  · rw [written, if_pos ends, ends]
    cases mode with
    | margin lines =>
        obtain ⟨line, rfl⟩ := read.exists_line
        have held : (Mode.margin { lines with breaks := lines.breaks ++ [c] }).held =
            lines.held ++ [c] := by
          simp [Mode.held, Lines.held]
        refine ⟨_, ⟨line + 1, 0⟩, [], read.emptyLine ends _, rfl, held, fun chomping rest => ?_⟩
        rw [List.singleton_append, lines?_emptyLine ends]
        simp
    | text blank =>
        refine ⟨_, ⟨place.line + 1, 0⟩, [], read.broken ends _, rfl, rfl, fun chomping rest => ?_⟩
        rw [List.singleton_append, lines?_break ends]
        simp
  · have stays : isBreak c = false := by simpa using ends
    rw [written, if_neg ends, stays]
    cases mode with
    | margin lines =>
        obtain ⟨line, rfl⟩ := read.exists_line
        refine ⟨.text (isBlank c), ⟨line, 3⟩, lines.held ++ [c], .line _ _ stays, rfl,
          List.append_nil _, fun chomping rest => ?_⟩
        simp only [Mode.begins, if_true, List.append_assoc, List.singleton_append]
        rw [lines?_begin stays]
    | text blank =>
        refine ⟨.text blank, place.after c, [c], .line _ _ stays, rfl, rfl,
          fun chomping rest => ?_⟩
        exact lines?_char stays

/-- The rest of a text is read from its lines. -/
theorem lines?_body {done : List Char} {mode : Mode} (read : Read done mode place)
    (nonempty : done ++ text ≠ []) (follows : WordFollows rest) :
    ∃ line, lines? true (chompingOf (done ++ text)) 2 mode place
        (literalBody mode.begins text ++ (lineEnd (done ++ text) ++ rest)) =
      some (mode.held ++ text, ⟨⟨line, 0⟩, rest⟩) := by
  -- The header is about the whole text, so the part that was read stays in view.
  induction text generalizing done mode place with
  | nil =>
      rw [List.append_nil] at nonempty ⊢
      cases mode with
      | margin lines =>
          obtain ⟨line, rfl⟩ := read.exists_line
          refine ⟨line, ?_⟩
          rw [read.lineEnd_eq nonempty, literalBody, List.nil_append, List.nil_append,
            lines?_end follows, read.ending_eq nonempty, List.append_nil]
          rfl
      | text blank =>
          refine ⟨place.line + 1, ?_⟩
          rw [read.lineEnd_of_text, read.chompingOf_eq, literalBody, List.nil_append,
            List.singleton_append, lines?_break rfl, lines?_end follows]
          rfl
  | cons c text ih =>
      obtain ⟨mode', place', front, later, begins, held, step⟩ := read.exists_step c
      have whole : done ++ c :: text = done ++ [c] ++ text := by simp
      rw [whole] at nonempty ⊢
      obtain ⟨line, next⟩ := ih later nonempty
      refine ⟨line, ?_⟩
      rw [begins] at next
      rw [literalBody_cons, List.append_assoc (written _ _), step, next, Option.map_some,
        ← List.append_assoc, held, List.append_assoc, List.singleton_append]

/-! ## The header -/

/-- The mark of what becomes of the breaks at the end. -/
def Chomping.mark : Chomping → List Char
  | .strip => ['-']
  | .clip => []
  | .keep => ['+']

/-- Whether the margin cannot be read off the first line of a text. -/
def hidesMargin (text : List Char) : Bool :=
  text.head?.any fun c => c = ' ' || isBreak c

theorem literalHeader_eq (text : List Char) :
    literalHeader text = (if hidesMargin text then ['2'] else []) ++ (chompingOf text).mark := by
  rw [literalHeader, chompingOf, hidesMargin]
  congr 1
  rcases text.reverse with _ | ⟨c, _ | ⟨d, front⟩⟩
  · rfl
  · cases ends : isBreak c <;> simp [Chomping.mark, ends]
  · cases ends : isBreak c <;> cases also : isBreak d <;> simp [Chomping.mark, ends, also]

/-- The header of a text is read up to the end of its line. -/
theorem indicators?_header (text body : List Char) (place : Position) :
    ∃ place', indicators? ⟨place, literalHeader text ++ '\n' :: body⟩ =
      some (chompingOf text, if hidesMargin text then some 2 else none,
        ⟨place', '\n' :: body⟩) := by
  rw [literalHeader_eq]
  cases hidesMargin text <;> cases chompingOf text <;> exact ⟨_, rfl⟩

/-- A text that shows its margin begins behind it. -/
theorem exists_body_of_shown (nonempty : text ≠ []) (shown : hidesMargin text = false) :
    ∃ c body, isBreak c = false ∧ c ≠ ' ' ∧ c ∈ text ∧
      literalBody true text = margin ++ c :: body := by
  cases text with
  | nil => exact absurd rfl nonempty
  | cons c text =>
      have first : c ≠ ' ' ∧ isBreak c = false := by simpa [hidesMargin] using shown
      refine ⟨c, literalBody false text, first.2, first.1, List.mem_cons_self, ?_⟩
      rw [literalBody, if_neg (by simp [first.2]), if_pos rfl]

theorem firstMargin?_margin (shows : isPrintable c = true) (stays : isBreak c = false)
    (solid : c ≠ ' ') (line : Nat) (rest : List Char) :
    firstMargin? 0 [] ⟨line, 0⟩ (margin ++ c :: rest) = some (2, [], ⟨⟨line, 2⟩, c :: rest⟩) := by
  have visible := isBlank_of_isPrintable shows solid
  simp only [isBlank, Bool.or_eq_false_iff, decide_eq_false_iff_not] at visible
  rw [margin, List.cons_append, firstMargin?, if_pos rfl, List.singleton_append, firstMargin?,
    if_pos rfl, firstMargin?, if_neg solid, if_neg visible.2, if_neg (by simp [stays])]
  rfl

/-- A text that is written as lines is read back from them. -/
theorem scan?_literal (shows : Printable text) (nonempty : text ≠ [])
    (follows : WordFollows rest) (place : Position) :
    ∃ line, scan? true (some 0)
        ⟨place, literalHeader text ++ '\n' :: (literalBody true text ++ (lineEnd text ++ rest))⟩ =
      some (text, ⟨⟨line, 0⟩, rest⟩) := by
  obtain ⟨place', header⟩ := indicators?_header text
    (literalBody true text ++ (lineEnd text ++ rest)) place
  have next : (⟨place', '\n' :: (literalBody true text ++ (lineEnd text ++ rest))⟩ :
      Cursor).skipLineEnd? =
        some ⟨⟨place'.line + 1, 0⟩, literalBody true text ++ (lineEnd text ++ rest)⟩ := rfl
  have start : Read [] (.margin ⟨none, false, []⟩) ⟨place'.line + 1, 0⟩ := .empty _ _ (by simp)
  obtain ⟨line, read⟩ := lines?_body start (show [] ++ text ≠ [] from nonempty) follows
  refine ⟨line, ?_⟩
  cases hidden : hidesMargin text with
  | true =>
      rw [hidden] at header
      simp only [scan?, header, next, Option.bind_eq_bind, Option.bind_some, if_true]
      exact read
  | false =>
      rw [hidden] at header
      obtain ⟨c, body, stays, solid, member, written⟩ := exists_body_of_shown nonempty hidden
      have lines : literalBody true text ++ (lineEnd text ++ rest) =
          margin ++ c :: (body ++ (lineEnd text ++ rest)) := by
        rw [written, List.append_assoc, List.cons_append]
      have first := firstMargin?_margin (shows c member) stays solid (place'.line + 1)
        (body ++ (lineEnd text ++ rest))
      rw [← lines] at first
      simp only [scan?, header, next, first, Option.bind_eq_bind, Option.bind_some]
      rw [Mode.begins, List.nil_append, lines, lines?_margin] at read
      exact read

end FleetDeploy.Yaml.Block
