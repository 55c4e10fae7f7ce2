import FleetDeploy.Proofs.Yaml.Literal
import FleetDeploy.Proofs.Yaml.Plain
import FleetDeploy.Proofs.Yaml.Quoted
import FleetDeploy.Yaml.Layout

/-!
# The tokens of a record

A record is written as one line for each field, so its reader stands at the margin in front
of each field, and three words lead from one field to the next: the key, the colon and what
the field holds.  The first of them also opens the block that the record is.
-/

namespace FleetDeploy.Yaml.Layout

open Printer

/-! ## Steps -/

/-- So many words are read, and reading goes on from there. -/
def Steps (count : Nat) (layout next : Layout) : Prop :=
  ∀ fuel, layout.run? (fuel + count) = next.run? fuel

theorem Steps.trans {m n : Nat} {layout next last : Layout} (first : Steps m layout next)
    (second : Steps n next last) : Steps (n + m) layout last := by
  intro fuel
  rw [← Nat.add_assoc, first, second]

theorem steps_one {layout here next : Layout} {c : Char} {rest : List Char}
    (goes : layout.nextWord = here) (chars : here.cursor.chars = c :: rest)
    (step : here.step? c rest = some next) : Steps 1 layout next := by
  intro fuel
  rw [run?, goes]
  simp only [chars, step, Option.bind_some]

/-- More fuel changes nothing. -/
theorem run?_add {fuel : Nat} {layout : Layout} {tokens : List Token}
    (ended : layout.run? fuel = some tokens) (more : Nat) :
    layout.run? (fuel + more) = some tokens := by
  induction fuel generalizing layout with
  | zero => cases ended
  | succ fuel ih =>
      rw [Nat.add_right_comm]
      rw [run?] at ended ⊢
      split at ended
      next => assumption
      next c rest chars =>
        obtain ⟨next, step, ended⟩ := Option.bind_eq_some_iff.mp ended
        rw [step]
        exact ih ended

/-! ## Where words begin -/

section

variable {place : Position} {tokens : List Token} {key : Option PossibleKey}
  {keyAllowed opened : Bool} {c : Char} {rest : List Char} {line : Nat}

/-- The columns of the open blocks, inside a record or in front of it. -/
def margins : Bool → List Nat
  | false => []
  | true => [0]

/-- No block lies to the right of a place. -/
theorem closeBlocks_margins (column : Nat) (cursor : Cursor) :
    closeBlocks (column < ·) ⟨cursor, tokens, key, [], keyAllowed, margins opened⟩ =
      ⟨cursor, tokens, key, [], keyAllowed, margins opened⟩ := by
  cases opened <;> simp [closeBlocks, margins, flow]

theorem nextWord_of_approach (tokens : List Token) (key : Option PossibleKey) (opened : Bool)
    {chars : List Char} {next : Cursor} {nextAllowed : Bool}
    (approached : approach false keyAllowed false place chars = (nextAllowed, next)) :
    nextWord ⟨⟨place, chars⟩, tokens, key, [], keyAllowed, margins opened⟩ =
      ⟨next, tokens, key, [], nextAllowed, margins opened⟩ := by
  simp only [nextWord, flow, List.isEmpty_nil, Bool.not_true, approached]
  exact closeBlocks_margins _ _

theorem approach_word (keyAllowed : Bool) (visible : isBlank c = false) (stays : isBreak c = false)
    (uncommented : c ≠ '#') :
    approach false keyAllowed false place (c :: rest) = (keyAllowed, ⟨place, c :: rest⟩) := by
  simp only [isBlank, Bool.or_eq_false_iff, decide_eq_false_iff_not] at visible
  simp [approach, visible, stays, uncommented]

theorem approach_space (keyAllowed : Bool) (visible : isBlank c = false) (stays : isBreak c = false)
    (uncommented : c ≠ '#') :
    approach false keyAllowed false place (' ' :: c :: rest) =
      (keyAllowed, ⟨⟨place.line, place.column + 1⟩, c :: rest⟩) := by
  rw [approach, if_neg (by decide), if_pos (by simp)]
  exact approach_word keyAllowed visible stays uncommented

theorem approach_margin (follows : WordFollows rest) :
    approach false true false place rest = (true, ⟨place, rest⟩) := by
  cases rest with
  | nil => rfl
  | cons c rest =>
      have word : isWordChar c = true := follows c rfl
      exact approach_word true (isBlank_of_isWordChar word) (isBreak_of_isWordChar word)
        (ne_of_isWordChar word rfl)

theorem approach_lineEnd (follows : WordFollows rest) :
    approach false keyAllowed false place ('\n' :: rest) =
      (true, ⟨⟨place.line + 1, 0⟩, rest⟩) := by
  rw [approach, if_pos (by decide), Bool.not_false, Bool.or_true]
  exact approach_margin follows

/-- The reader of a record stands at the margin in front of a field, or behind the last. -/
def Ready (layout : Layout) (tokens : List Token) (opened : Bool) (rest : List Char) : Prop :=
  ∃ line, layout.nextWord = ⟨⟨⟨line, 0⟩, rest⟩, tokens, none, [], true, margins opened⟩

theorem ready_margin (line : Nat) (opened : Bool) (follows : WordFollows rest) :
    Ready ⟨⟨⟨line, 0⟩, rest⟩, tokens, none, [], true, margins opened⟩ tokens opened rest :=
  ⟨line, nextWord_of_approach tokens none opened (approach_margin follows)⟩

theorem ready_lineEnd (place : Position) (keyAllowed : Bool) (follows : WordFollows rest) :
    Ready ⟨⟨place, '\n' :: rest⟩, tokens, none, [], keyAllowed, margins opened⟩ tokens opened
      rest :=
  ⟨_, nextWord_of_approach tokens none opened (approach_lineEnd follows)⟩

/-! ## Keys -/

/-- A word is read as a plain scalar, wherever it stands. -/
theorem step?_word (word : isWordChar c = true) (layout : Layout) :
    layout.step? c rest = layout.plain? := by
  have apart (d : Char) (other : isWordChar d = false) : c ≠ d := ne_of_isWordChar word other
  have unmarked (symbol : Char) (other : isWordChar symbol = false) :
      isMarkerOf symbol (c :: rest) = false := isMarkerOf_of_ne (apart symbol other)
  have outside : c ∉ Plain.indicators := by
    have all : (Plain.indicators.all fun d => !isWordChar d) = true := by decide
    intro inside
    simpa [word] using List.all_eq_true.mp all c inside
  have starts : Plain.starts layout.flow (c :: rest) = true := by
    simp [Plain.starts, isBlank_of_isWordChar word, isBreak_of_isWordChar word, outside]
  simp only [step?, unmarked '-' rfl, unmarked '.' rfl, apart '%' rfl, apart '[' rfl,
    apart '\x7b' rfl, apart ']' rfl, apart '\x7d' rfl, apart ',' rfl, apart '-' rfl, apart '?' rfl,
    apart ':' rfl, apart '*' rfl, apart '&' rfl, apart '!' rfl, apart '\'' rfl, apart '"' rfl,
    apart '|' rfl, apart '>' rfl, decide_false, Bool.and_false, Bool.false_and,
    Bool.false_eq_true, if_false, starts, if_true]

/-- The key of a field is read as a plain scalar that may be a key. -/
theorem plain?_key {key : List Char} (word : IsWord key) :
    plain? ⟨⟨⟨line, 0⟩, key ++ ':' :: ' ' :: rest⟩, tokens, none, [], true, margins opened⟩ =
      some ⟨⟨⟨line, key.length⟩, ':' :: ' ' :: rest⟩, .scalar .plain key :: tokens,
        some ⟨⟨line, 0⟩, tokens.length, opened⟩, [], false, margins opened⟩ := by
  have stop {indent : Nat} {place : Position} :
      Plain.scan? false indent .empty place (':' :: ' ' :: rest) =
        some ⟨[], false, ⟨place, ':' :: ' ' :: rest⟩⟩ :=
    Plain.scan?_end rfl rfl (by simp [Plain.ends, endsWord, isBlank])
  have required : (margins opened).head? = some 0 ↔ opened = true := by cases opened <;> decide
  simp [plain?, rememberKey?, forgetKey?, accept, emit, flow, required, Plain.scan?_word word, stop]

/-- Tokens are inserted in front of the newest ones. -/
theorem insertAt_append (layout : Layout) (newest older inserted : List Token) :
    insertAt older.length inserted { layout with tokens := newest ++ older } =
      { layout with tokens := newest ++ inserted.reverse ++ older } := by
  simp [insertAt]

/-- The colon behind a key marks it, and opens the block of the record in front of the first. -/
theorem value?_key {key : List Char} (short : key.length ≤ keySpan) :
    value? ⟨⟨⟨line, key.length⟩, ':' :: ' ' :: rest⟩, .scalar .plain key :: tokens,
        some ⟨⟨line, 0⟩, tokens.length, opened⟩, [], false, margins opened⟩ =
      some ⟨⟨⟨line, key.length + 1⟩, ' ' :: rest⟩,
        .value :: .scalar .plain key :: .key ::
          ((if opened then [] else [.blockMapping]) ++ tokens), none, [], false, margins true⟩ := by
  have reached : (some ⟨⟨line, 0⟩, tokens.length, opened⟩ : Option PossibleKey).filter
      (·.reaches ⟨line, key.length⟩) = some ⟨⟨line, 0⟩, tokens.length, opened⟩ := by
    simp [PossibleKey.reaches, Option.filter, short]
  have marked := insertAt_append
    ⟨⟨⟨line, key.length⟩, ':' :: ' ' :: rest⟩, [], none, [], false, margins opened⟩
    [.scalar .plain key] tokens [.key]
  simp only [value?, reached]
  rw [List.singleton_append] at marked
  rw [marked]
  cases opened with
  | true => rfl
  | false =>
      have begun := insertAt_append
        ⟨⟨⟨line, key.length⟩, ':' :: ' ' :: rest⟩, [], none, [], false, [0]⟩
        [.scalar .plain key, .key] tokens [.blockMapping]
      exact congrArg (fun layout => some (take .value false layout)) begun

/-! ## What fields hold -/

/-- A scalar begins behind the colon of a field: its token is read, and the reader gets ready
for what follows. -/
structure Begins (c : Char) (body : List Char) (token : Token) (rest : List Char) : Prop where
  visible : isBlank c = false
  stays : isBreak c = false
  uncommented : c ≠ '#'
  read (place : Position) (tokens : List Token) : 0 < place.column →
    ∃ next, step? c body ⟨⟨place, c :: body⟩, tokens, none, [], false, margins true⟩ = some next ∧
      Ready next (token :: tokens) true rest

/-- A plain scalar may begin with a character that a text may begin with. -/
theorem starts_of_not_opens {tail : List Char} (visible : isBlank c = false)
    (stays : isBreak c = false) (unmarked : c ∉ openers)
    (word : ((c = '?' || c = ':' || c = '-') && endsWord tail) = false) :
    Plain.starts false (c :: tail) = true := by
  have marks : (Plain.indicators.all (· ∈ openers ++ ['-', '?', ':'])) = true := by decide
  by_cases indicator : c ∈ Plain.indicators
  · have other : c = '-' ∨ c = '?' ∨ c = ':' := by
      simpa [unmarked] using List.all_eq_true.mp marks c indicator
    rcases other with rfl | rfl | rfl
    · have further : endsWord tail = false := by simpa using word
      cases tail with
      | nil => cases further
      | cons d tail =>
          rw [endsWord, Bool.or_eq_false_iff] at further
          simp [Plain.starts, further.1]
    · have further : endsWord tail = false := by simpa using word
      simp [Plain.starts, further]
    · have further : endsWord tail = false := by simpa using word
      simp [Plain.starts, further]
  · simp [Plain.starts, visible, stays, indicator]

/-- A text that gives no structure is read as a plain scalar. -/
theorem step?_text {text : List Char} (visible : isBlank c = false) (stays : isBreak c = false)
    (opens : opensStructure (c :: text) = false) (inLine : 0 < place.column) :
    step? c (text ++ '\n' :: rest)
        ⟨⟨place, c :: (text ++ '\n' :: rest)⟩, tokens, none, [], keyAllowed, margins true⟩ =
      plain?
        ⟨⟨place, c :: (text ++ '\n' :: rest)⟩, tokens, none, [], keyAllowed, margins true⟩ := by
  have inside : place.column ≠ 0 := Nat.pos_iff_ne_zero.mp inLine
  simp only [opensStructure, Bool.or_eq_false_iff, decide_eq_false_iff_not] at opens
  obtain ⟨⟨⟨unmarked, word⟩, -⟩, -⟩ := opens
  rw [← endsWord_append_lineEnd text rest] at word
  have apart (d : Char) (opener : d ∈ openers) : c ≠ d := by
    rintro rfl
    exact unmarked opener
  have bare (d : Char) (mark : d = '?' ∨ d = ':' ∨ d = '-') :
      (decide (c = d) && endsWord (text ++ '\n' :: rest)) = false := by
    by_cases same : c = d
    · rcases mark with rfl | rfl | rfl <;> simpa [same] using word
    · simp [same]
  have starts := starts_of_not_opens visible stays unmarked word
  simp only [step?, flow, inside, List.isEmpty_nil, Bool.not_true, Bool.not_false, Bool.false_or,
    apart '[' (by decide), apart '\x7b' (by decide), apart ']' (by decide),
    apart '\x7d' (by decide), apart ',' (by decide), bare '-' (by simp), bare '?' (by simp),
    bare ':' (by simp), apart '*' (by decide), apart '&' (by decide), apart '!' (by decide),
    apart '\'' (by decide), apart '"' (by decide), apart '|' (by decide), apart '>' (by decide),
    decide_false, Bool.false_and, Bool.false_eq_true, if_false, starts, if_true]

theorem begins_plain {text : List Char} (fits : Fits (c :: text) .plain)
    (follows : WordFollows rest) :
    Begins c (text ++ '\n' :: rest) (.scalar .plain (c :: text)) rest := by
  cases fits with
  | plain shows oneLine first last opens holds =>
      have visible := isBlank_of_isPrintable (printable_cons_iff.mp shows).1 first
      have stays := oneLine c List.mem_cons_self
      have unsigned : c ≠ '#' := by
        rintro rfl
        cases opens
      have whole : holdsStructure c (c :: text) = false := by
        simp only [opensStructure, Bool.or_eq_false_iff] at opens
        have word := opens.1.1.2
        simp only [holdsStructure, holds, unsigned, decide_false, Bool.false_and, Bool.or_false]
        by_cases colon : c = ':'
        · simpa [colon] using word
        · simp [colon]
      refine ⟨visible, stays, unsigned, fun place tokens inLine => ?_⟩
      obtain ⟨line, read⟩ := Plain.scan?_text [] c inLine follows shows oneLine (fun _ => rfl) last
        (fun some => absurd rfl some) whole
      refine ⟨_, ?_, ready_margin line true follows⟩
      rw [step?_text visible stays opens inLine]
      change (Plain.scan? false 1 (.blanks []) place (c :: text ++ '\n' :: rest)).bind _ = _
      rw [read]
      rfl

theorem step?_single (inLine : 0 < place.column) (body : List Char) :
    step? '\'' body ⟨⟨place, '\'' :: body⟩, tokens, none, [], false, margins true⟩ =
      (Quoted.single? .empty ⟨place.line, place.column + 1⟩ body).map fun (text, cursor) =>
        ⟨cursor, .scalar .single text :: tokens, none, [], false, margins true⟩ := by
  have inside : place.column ≠ 0 := Nat.pos_iff_ne_zero.mp inLine
  simp only [step?, inside, decide_false, Bool.false_and, Bool.false_eq_true, if_false]
  change ((Quoted.single? .empty ⟨place.line, place.column + 1⟩ body).map _).bind _ = _
  rw [Option.bind_map]
  cases Quoted.single? .empty ⟨place.line, place.column + 1⟩ body <;> rfl

theorem step?_double (inLine : 0 < place.column) (body : List Char) :
    step? '"' body ⟨⟨place, '"' :: body⟩, tokens, none, [], false, margins true⟩ =
      (Quoted.double? (.text .empty) ⟨place.line, place.column + 1⟩ body).map
        fun (text, cursor) =>
          ⟨cursor, .scalar .double text :: tokens, none, [], false, margins true⟩ := by
  have inside : place.column ≠ 0 := Nat.pos_iff_ne_zero.mp inLine
  simp only [step?, inside, decide_false, Bool.false_and, Bool.false_eq_true, if_false]
  change ((Quoted.double? (.text .empty) ⟨place.line, place.column + 1⟩ body).map _).bind _ = _
  rw [Option.bind_map]
  cases Quoted.double? (.text .empty) ⟨place.line, place.column + 1⟩ body <;> rfl

theorem step?_literal (inLine : 0 < place.column) (body : List Char) :
    step? '|' body ⟨⟨place, '|' :: body⟩, tokens, none, [], false, margins true⟩ =
      (Block.scan? true (some 0) ⟨⟨place.line, place.column + 1⟩, body⟩).map
        fun (text, cursor) =>
          ⟨cursor, .scalar .literal text :: tokens, none, [], true, margins true⟩ := by
  have inside : place.column ≠ 0 := Nat.pos_iff_ne_zero.mp inLine
  simp only [step?, inside, decide_false, Bool.false_and, Bool.false_eq_true, if_false]
  change (Block.scan? true (some 0) ⟨⟨place.line, place.column + 1⟩, body⟩).bind _ = _
  cases Block.scan? true (some 0) ⟨⟨place.line, place.column + 1⟩, body⟩ <;> rfl

theorem begins_single {text : List Char} (fits : Fits text .single) (follows : WordFollows rest) :
    Begins '\'' (singleBody false text ++ '\'' :: '\n' :: rest) (.scalar .single text) rest := by
  cases fits with
  | single shows unbroken before behind =>
      refine ⟨by decide, by decide, by decide, fun place tokens inLine => ?_⟩
      have start : Quoted.Between text false .empty ⟨place.line, place.column + 1⟩ :=
        .words (Nat.succ_pos _) (by simp)
      have other : ('\n' :: rest).head? ≠ some '\'' := by simp
      obtain ⟨place', read⟩ := Quoted.single?_body start shows unbroken before behind other
      refine ⟨_, ?_, ready_lineEnd place' false follows⟩
      rw [step?_single inLine, read]
      rfl

theorem begins_double (text : List Char) (follows : WordFollows rest) :
    Begins '"' (text.flatMap escape ++ '"' :: '\n' :: rest) (.scalar .double text) rest := by
  refine ⟨by decide, by decide, by decide, fun place tokens inLine => ?_⟩
  have inside : 0 < (⟨place.line, place.column + 1⟩ : Position).column := Nat.succ_pos _
  obtain ⟨place', read⟩ := Quoted.double?_body text [] ('\n' :: rest) inside
  refine ⟨_, ?_, ready_lineEnd place' false follows⟩
  rw [step?_double inLine, Gap.empty, read]
  rfl

theorem begins_literal {text : List Char} (fits : Fits text .literal)
    (follows : WordFollows rest) :
    Begins '|' (literalHeader text ++ '\n' :: (literalBody true text ++ (lineEnd text ++ rest)))
      (.scalar .literal text) rest := by
  cases fits with
  | literal shows broken =>
      refine ⟨by decide, by decide, by decide, fun place tokens inLine => ?_⟩
      obtain ⟨line, read⟩ := Block.scan?_literal shows (List.ne_nil_of_mem broken) follows
        ⟨place.line, place.column + 1⟩
      refine ⟨_, ?_, ready_margin line true follows⟩
      rw [step?_literal inLine, read]
      rfl

/-- The digits of a count are read as a plain scalar. -/
theorem begins_word {word : List Char} (all : IsWord (c :: word)) (follows : WordFollows rest) :
    Begins c (word ++ '\n' :: rest) (.scalar .plain (c :: word)) rest := by
  have first : isWordChar c = true := (isWord_cons_iff.mp all).1
  refine ⟨isBlank_of_isWordChar first, isBreak_of_isWordChar first, ne_of_isWordChar first rfl,
    fun place tokens _ => ?_⟩
  refine ⟨_, ?_, ready_margin (place.line + 1) true follows⟩
  rw [step?_word first]
  change (Plain.scan? false 1 .empty place (c :: word ++ '\n' :: rest)).bind _ = _
  rw [Plain.scan?_word all, Gap.empty, Plain.scan?_lineEnd [] follows]
  simp [accept, emit]

/-- The token of what a field holds. -/
def itemToken : Item → Token
  | .text t => .scalar (styleOf t.toList) t.toList
  | .count n => .scalar .plain (Nat.toDigits 10 n.toNat)

/-- A text begins behind the colon of a field, in whatever style it is written. -/
theorem begins_render {text : List Char} {style : Style} (fits : Fits text style)
    (follows : WordFollows rest) :
    ∃ c body, render text style ++ (lineEnd (render text style) ++ rest) = c :: body ∧
      Begins c body (.scalar style text) rest := by
  cases style with
  | plain =>
      have fits' := fits
      cases fits' with
      | plain _ oneLine =>
          refine ⟨_, _, ?_, begins_plain fits follows⟩
          rw [render, lineEnd_of_oneLine oneLine]
          rfl
  | single =>
      refine ⟨_, _, ?_, begins_single fits follows⟩
      rw [render, lineEnd_char (by decide)]
      simp
  | double =>
      refine ⟨_, _, ?_, begins_double text follows⟩
      rw [render, lineEnd_char (by decide)]
      simp
  | literal =>
      refine ⟨_, _, ?_, begins_literal fits follows⟩
      have nonempty : text ≠ [] := by
        cases fits with
        | literal _ broken => exact List.ne_nil_of_mem broken
      rw [render, lineEnd_literal nonempty]
      simp
  | folded => cases fits

/-- What a field holds begins behind its colon. -/
theorem begins_item (value : Item) (follows : WordFollows rest) :
    ∃ c body, item value ++ (lineEnd (item value) ++ rest) = c :: body ∧
      Begins c body (itemToken value) rest := by
  cases value with
  | text t => exact begins_render (fits_styleOf t.toList) follows
  | count n =>
      have word := isWord_toDigits n.toNat
      rw [item, itemToken, lineEnd_of_oneLine fun c member => isBreak_of_isWordChar (word c member)]
      cases digits : Nat.toDigits 10 n.toNat with
      | nil => exact absurd digits Nat.toDigits_ne_nil
      | cons c rest =>
          rw [digits] at word
          exact ⟨_, _, rfl, begins_word word follows⟩

/-! ## Fields -/

theorem step?_colon (inLine : 0 < place.column) (body : List Char) (key : Option PossibleKey) :
    step? ':' (' ' :: body) ⟨⟨place, ':' :: ' ' :: body⟩, tokens, key, [], false, margins opened⟩ =
      value? ⟨⟨place, ':' :: ' ' :: body⟩, tokens, key, [], false, margins opened⟩ := by
  have inside : place.column ≠ 0 := Nat.pos_iff_ne_zero.mp inLine
  simp only [step?, inside, decide_false, Bool.false_and, Bool.false_eq_true, if_false]
  rfl

/-- The tokens of a field. -/
def fieldTokens (field : String × Item) : List Token :=
  [.key, .scalar .plain field.1.toList, .value, itemToken field.2]

/-- A key that is a plain word on its line. -/
structure IsKey (key : String) : Prop where
  nonempty : key.toList ≠ []
  word : IsWord key.toList
  short : key.toList.length ≤ keySpan

/-- Whether a text is a plain word on its line. -/
def isKey (key : String) : Bool :=
  !key.toList.isEmpty && key.toList.all isWordChar && key.toList.length ≤ keySpan

theorem isKey_iff {key : String} : isKey key = true ↔ IsKey key := by
  simp only [isKey, Bool.and_eq_true, Bool.not_eq_true', List.isEmpty_eq_false_iff,
    List.all_eq_true, decide_eq_true_eq]
  constructor
  · rintro ⟨⟨nonempty, word⟩, short⟩
    exact ⟨nonempty, word, short⟩
  · rintro ⟨nonempty, word, short⟩
    exact ⟨⟨nonempty, word⟩, short⟩

theorem IsKey.follows {key : String} (isKey : IsKey key) (rest : List Char) :
    WordFollows (key.toList ++ rest) := by
  cases chars : key.toList with
  | nil => exact absurd chars isKey.nonempty
  | cons c more =>
      rintro d ⟨⟩
      exact isKey.word c (by rw [chars]; exact List.mem_cons_self)

theorem steps_key {layout : Layout} {key : List Char} (nonempty : key ≠ []) (word : IsWord key)
    (here : layout.nextWord =
      ⟨⟨⟨line, 0⟩, key ++ ':' :: ' ' :: rest⟩, tokens, none, [], true, margins opened⟩) :
    Steps 1 layout ⟨⟨⟨line, key.length⟩, ':' :: ' ' :: rest⟩, .scalar .plain key :: tokens,
      some ⟨⟨line, 0⟩, tokens.length, opened⟩, [], false, margins opened⟩ := by
  cases key with
  | nil => exact absurd rfl nonempty
  | cons c key =>
      exact steps_one here rfl ((step?_word (isWord_cons_iff.mp word).1 _).trans (plain?_key word))

theorem steps_colon {key : List Char} (nonempty : key ≠ []) (short : key.length ≤ keySpan)
    (line : Nat) (rest : List Char) (tokens : List Token) (opened : Bool) :
    Steps 1 ⟨⟨⟨line, key.length⟩, ':' :: ' ' :: rest⟩, .scalar .plain key :: tokens,
        some ⟨⟨line, 0⟩, tokens.length, opened⟩, [], false, margins opened⟩
      ⟨⟨⟨line, key.length + 1⟩, ' ' :: rest⟩,
        .value :: .scalar .plain key :: .key ::
          ((if opened then [] else [.blockMapping]) ++ tokens), none, [], false, margins true⟩ := by
  have inLine : 0 < key.length := List.length_pos_iff.mpr nonempty
  have stays : approach false false false ⟨line, key.length⟩ (':' :: ' ' :: rest) =
      (false, ⟨⟨line, key.length⟩, ':' :: ' ' :: rest⟩) := approach_word false rfl rfl (by decide)
  have here := nextWord_of_approach (.scalar .plain key :: tokens)
    (some ⟨⟨line, 0⟩, tokens.length, opened⟩) opened stays
  exact steps_one here rfl ((step?_colon inLine _ _).trans (value?_key short))

theorem steps_item {body : List Char} {token : Token} (begins : Begins c body token rest)
    (place : Position) (tokens : List Token) :
    ∃ next, Steps 1 ⟨⟨place, ' ' :: c :: body⟩, tokens, none, [], false, margins true⟩ next ∧
      Ready next (token :: tokens) true rest := by
  have approached : approach false false false place (' ' :: c :: body) = _ :=
    approach_space false begins.visible begins.stays begins.uncommented
  have here := nextWord_of_approach tokens none true approached
  obtain ⟨next, step, ready⟩ := begins.read ⟨place.line, place.column + 1⟩ tokens (Nat.succ_pos _)
  exact ⟨next, steps_one here rfl step, ready⟩

theorem item_ne_nil (value : Item) : item value ≠ [] := by
  intro empty
  obtain ⟨c, body, chars, begins⟩ := begins_item value (show WordFollows [] from nofun)
  rw [empty] at chars
  cases chars
  cases begins.stays

theorem field_append (key : String) (value : Item) (rest : List Char) :
    field key value ++ rest =
      key.toList ++ ':' :: ' ' :: (item value ++ (lineEnd (item value) ++ rest)) := by
  have line : key.toList ++ ':' :: ' ' :: item value = key.toList ++ [':', ' '] ++ item value := by
    simp
  rw [field_eq, line, lineEnd_append (item_ne_nil value)]
  simp

/-- Three words lead from one field to the next. -/
theorem steps_field {layout : Layout} {key : String} {value : Item} (isKey : IsKey key)
    (follows : WordFollows rest) (ready : Ready layout tokens opened (field key value ++ rest)) :
    ∃ next, Steps 3 layout next ∧
      Ready next ((fieldTokens (key, value)).reverse ++
        ((if opened then [] else [.blockMapping]) ++ tokens)) true rest := by
  obtain ⟨line, here⟩ := ready
  obtain ⟨c, body, chars, begins⟩ := begins_item value follows
  rw [field_append, chars] at here
  have first := steps_key isKey.nonempty isKey.word here
  have second := steps_colon isKey.nonempty isKey.short line (c :: body) tokens opened
  obtain ⟨next, third, ready⟩ := steps_item begins ⟨line, key.toList.length + 1⟩
    (.value :: .scalar .plain key.toList :: .key ::
      ((if opened then [] else [.blockMapping]) ++ tokens))
  exact ⟨next, (first.trans second).trans third, ready⟩

/-! ## Records -/

theorem follows_record {fields : List (String × Item)} (keys : ∀ field ∈ fields, IsKey field.1) :
    WordFollows (record fields) := by
  cases fields with
  | nil => exact nofun
  | cons field fields =>
      rw [record, List.flatMap_cons, field_append]
      exact (keys field List.mem_cons_self).follows _

/-- The fields of a record are read one after the other. -/
theorem steps_record {layout : Layout} {fields : List (String × Item)}
    (keys : ∀ field ∈ fields, IsKey field.1) (ready : Ready layout tokens true (record fields)) :
    ∃ next, Steps (3 * fields.length) layout next ∧
      Ready next ((fields.flatMap fieldTokens).reverse ++ tokens) true [] := by
  induction fields generalizing layout tokens with
  | nil => exact ⟨layout, fun _ => rfl, ready⟩
  | cons field fields ih =>
      rw [List.forall_mem_cons] at keys
      obtain ⟨key, value⟩ := field
      obtain ⟨middle, first, ready⟩ := steps_field keys.1 (follows_record keys.2) ready
      obtain ⟨next, others, ready⟩ := ih keys.2 ready
      refine ⟨next, first.trans others, ?_⟩
      simpa using ready

/-- Behind the last field the block of the record is closed. -/
theorem run?_end {layout : Layout} (ready : Ready layout tokens true []) (fuel : Nat) :
    layout.run? (fuel + 1) = some (tokens.reverse ++ [.blockEnd]) := by
  obtain ⟨line, here⟩ := ready
  rw [run?, here]
  simp [closeDocument?, closeBlocks, forgetKey?, flow, margins]

end

end FleetDeploy.Yaml.Layout

namespace FleetDeploy.Yaml

open Printer Layout

theorem length_record {fields : List (String × Item)} (keys : ∀ field ∈ fields, IsKey field.1) :
    3 * fields.length ≤ (record fields).length := by
  induction fields with
  | nil => exact Nat.zero_le _
  | cons field fields ih =>
      rw [List.forall_mem_cons] at keys
      have first : 0 < field.1.toList.length := List.length_pos_iff.mpr keys.1.nonempty
      have others := ih keys.2
      rw [record, List.flatMap_cons, field_append]
      simp only [List.length_append, List.length_cons]
      change _ ≤ _ + (_ + (_ + (record fields).length) + 1 + 1)
      omega

/-- A record is no byte order mark. -/
theorem start_of_follows {chars : List Char} (follows : WordFollows chars) :
    Cursor.start chars = ⟨⟨0, 0⟩, chars⟩ := by
  unfold Cursor.start
  split
  next rest => exact absurd (follows '\uFEFF' rfl) (by decide)
  next => rfl

/-- The tokens of a record are those of its fields, within a block. -/
theorem tokens?_record {field : String × Item} {fields : List (String × Item)}
    (keys : ∀ other ∈ field :: fields, IsKey other.1) :
    tokens? (record (field :: fields)) =
      some (.blockMapping :: ((field :: fields).flatMap fieldTokens ++ [.blockEnd])) := by
  have start : Ready (Layout.start (record (field :: fields))) [] false
      (record (field :: fields)) := by
    rw [Layout.start, start_of_follows (follows_record keys)]
    exact ready_margin 0 false (follows_record keys)
  -- The first field is read on its own, since its colon opens the block.
  obtain ⟨key, value⟩ := field
  have enough := length_record keys
  rw [List.forall_mem_cons] at keys
  obtain ⟨middle, first, ready⟩ := steps_field keys.1 (follows_record keys.2) start
  obtain ⟨last, others, ready⟩ := steps_record keys.2 ready
  have run := (first.trans others 1).trans (run?_end ready 0)
  obtain ⟨more, length⟩ := Nat.exists_eq_add_of_le enough
  have fuel : (record ((key, value) :: fields)).length + 1 =
      1 + (3 * fields.length + 3) + more := by
    rw [length, List.length_cons]
    omega
  rw [tokens?, fuel, run?_add run more]
  simp

end FleetDeploy.Yaml
