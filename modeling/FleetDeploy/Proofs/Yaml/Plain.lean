import FleetDeploy.Proofs.Yaml.Printer
import FleetDeploy.Yaml.Scalar.Plain

/-!
# Plain scalars are read back

A text that is written without quotes is read back from its line.  The blanks between two
words of it are held as a gap while they are read.
-/

namespace FleetDeploy.Yaml.Plain

variable {indent : Nat} {gap : Gap} {place : Position} {c : Char} {rest : List Char}

theorem scan?_space : scan? false indent gap place (' ' :: rest) =
    scan? false indent (gap.addBlank ' ') (place.after ' ') rest := by
  rw [scan?, if_pos (by decide), if_neg (by simp)]

theorem scan?_break (ends : isBreak c = true) : scan? false indent gap place (c :: rest) =
    scan? false indent (gap.addBreak c) (place.after c) rest := by
  rw [scan?, if_neg (by simp [isBlank_of_isBreak ends]), if_pos ends]

theorem scan?_end (visible : isBlank c = false) (stays : isBreak c = false)
    (outside : ends false indent gap place c rest = true) :
    scan? false indent gap place (c :: rest) =
      some ⟨[], gap.crossesLines, ⟨place, c :: rest⟩⟩ := by
  rw [scan?, if_neg (by simp [visible]), if_neg (by simp [stays]), if_pos outside]

theorem scan?_char (visible : isBlank c = false) (stays : isBreak c = false)
    (inside : ends false indent gap place c rest = false) :
    scan? false indent gap place (c :: rest) =
      (scan? false indent .empty ⟨place.line, place.column + 1⟩ rest).map fun scalar =>
        { scalar with text := gap.joined ++ c :: scalar.text } := by
  rw [scan?, if_neg (by simp [visible]), if_neg (by simp [stays]), if_neg (by simp [inside]),
    if_neg (by simp [isStrayColon]), Position.after_of_not_break stays]

/-- On a new line a word at the margin is no part of a scalar that is to be indented. -/
theorem scan?_lineEnd (blanks : List Char) (follows : WordFollows rest) :
    scan? false 1 (.blanks blanks) place ('\n' :: rest) =
      some ⟨[], true, ⟨⟨place.line + 1, 0⟩, rest⟩⟩ := by
  rw [scan?_break rfl, Position.after_of_break rfl]
  cases rest with
  | nil => rfl
  | cons c rest =>
      have word : isWordChar c = true := follows c rfl
      exact scan?_end (isBlank_of_isWordChar word) (isBreak_of_isWordChar word) rfl

/-- The characters of a word are read one by one. -/
theorem scan?_word {word : List Char} (all : IsWord word) {line column : Nat}
    (tail : List Char) :
    scan? false indent .empty ⟨line, column⟩ (word ++ tail) =
      (scan? false indent .empty ⟨line, column + word.length⟩ tail).map fun scalar =>
        { scalar with text := word ++ scalar.text } := by
  induction word generalizing column with
  | nil => simp
  | cons c word ih =>
      rw [isWord_cons_iff] at all
      have apart (d : Char) (other : isWordChar d = false) : c ≠ d :=
        ne_of_isWordChar all.1 other
      have inside : ends false indent .empty ⟨line, column⟩ c (word ++ tail) = false := by
        simp [ends, Gap.isEmpty, Gap.empty, isMarker, isMarkerOf_of_ne (apart '-' rfl),
          isMarkerOf_of_ne (apart '.' rfl), apart ':' rfl]
      rw [List.cons_append, scan?_char (isBlank_of_isWordChar all.1)
        (isBreak_of_isWordChar all.1) inside, ih all.2, Option.map_map, List.length_cons,
        Nat.add_right_comm, Nat.add_assoc]
      rfl

/-- A character that gives no structure behind blanks ends no scalar. -/
theorem ends_eq_false {text tail blanks : List Char} {before : Char} (inLine : 0 < place.column)
    (colon : (decide (c = ':') && endsWord text) = false)
    (sign : (decide (c = '#') && (isBlank before || isBreak before)) = false)
    (spaced : blanks ≠ [] → before = ' ') :
    ends false 1 (.blanks blanks) place c (text ++ '\n' :: tail) = false := by
  have unsigned : (!Gap.isEmpty (.blanks blanks) && decide (c = '#')) = false := by
    by_cases none : blanks = []
    · simp [none, Gap.isEmpty]
    · have apart : c ≠ '#' := by
        rintro rfl
        rw [spaced none] at sign
        cases sign
      simp [apart]
  have below : ¬place.column < 1 := Nat.not_lt.mpr inLine
  have above : ¬place.column = 0 := Nat.pos_iff_ne_zero.mp inLine
  rw [ends, endsWord_append_lineEnd, colon]
  simpa [below, above] using unsigned

/-- The rest of a text that is written without quotes, behind some blanks. -/
theorem scan?_text {text tail : List Char} (blanks : List Char) (before : Char)
    (inLine : 0 < place.column) (follows : WordFollows tail) (shows : Printable text)
    (oneLine : ∀ d ∈ text, isBreak d = false) (bare : text = [] → blanks = [])
    (last : text.getLast? ≠ some ' ') (spaced : blanks ≠ [] → before = ' ')
    (holds : Printer.holdsStructure before text = false) :
    ∃ line, scan? false 1 (.blanks blanks) place (text ++ '\n' :: tail) =
      some ⟨blanks ++ text, true, ⟨⟨line, 0⟩, tail⟩⟩ := by
  induction text generalizing blanks before place with
  | nil =>
      rw [bare rfl]
      exact ⟨_, scan?_lineEnd [] follows⟩
  | cons c text ih =>
      rw [printable_cons_iff] at shows
      rw [List.forall_mem_cons] at oneLine
      simp only [Printer.holdsStructure, Bool.or_eq_false_iff] at holds
      obtain ⟨⟨colon, sign⟩, holds⟩ := holds
      have later : text.getLast? ≠ some ' ' := by
        intro same
        exact last (by rw [List.getLast?_cons, same, Option.getD_some])
      by_cases space : c = ' '
      · subst space
        -- The text has no space at its end, so a word follows these blanks.
        have goesOn : text = [] → blanks ++ [' '] = [] := by
          rintro rfl
          exact absurd rfl last
        have further : 0 < (place.after ' ').column := Nat.succ_pos _
        obtain ⟨line, read⟩ := ih (blanks ++ [' ']) ' ' further shows.2 oneLine.2 goesOn later
          (fun _ => rfl) holds
        refine ⟨line, ?_⟩
        rw [List.cons_append, scan?_space]
        simpa [Gap.addBlank] using read
      · have visible : isBlank c = false := isBlank_of_isPrintable shows.1 space
        have further : 0 < (⟨place.line, place.column + 1⟩ : Position).column := Nat.succ_pos _
        obtain ⟨line, read⟩ := ih [] c further shows.2 oneLine.2 (fun _ => rfl) later
          (fun some => absurd rfl some) holds
        refine ⟨line, ?_⟩
        rw [List.cons_append,
          scan?_char visible oneLine.1 (ends_eq_false inLine colon sign spaced)]
        exact congrArg (Option.map _) read

end FleetDeploy.Yaml.Plain
