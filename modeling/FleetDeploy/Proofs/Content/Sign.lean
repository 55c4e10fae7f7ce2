import FleetDeploy.Content.Sniff
import Mathlib.Data.List.Infix
import Mathlib.Data.List.TakeWhile

/-!
# Signs of a content type

The rules for the type of content look for signs at its start: byte order marks and
signatures at the very start, and behind white space a tag of a page or the declaration of a
document.  No sign begins another one.  So at most one sign begins any content, and it tells
the type in whatever order the rules are tried.

A type that a sign told therefore stays whatever is appended, and white space can be put in
front of a tag or a declaration exactly as long as it still ends in the window.
-/

namespace FleetDeploy.Content

variable {s content space mark tag : List UInt8} {type : String} {b close : UInt8}

/-! ## Families of starts -/

/-- A family of typed starts of content of which none begins another. -/
def PrefixFree (family : List UInt8 → String → Prop) : Prop :=
  ∀ ⦃s type s' type'⦄, family s type → family s' type' → s <+: s' → s = s' ∧ type = type'

/-- At most one member of a prefix-free family begins some content. -/
theorem PrefixFree.eq_of_prefix {family : List UInt8 → String → Prop} (free : PrefixFree family)
    {s' : List UInt8} {type' : String} (first : family s type) (second : family s' type')
    (begins : s <+: content) (begins' : s' <+: content) : s = s' ∧ type = type' := by
  rcases List.prefix_or_prefix_of_prefix begins begins' with shorter | longer
  · exact free first second shorter
  · obtain ⟨rfl, rfl⟩ := free second first longer
    exact ⟨rfl, rfl⟩

theorem head?_of_begins (begins : s <+: content) (first : s.head? = some b) :
    content.head? = some b := by
  obtain ⟨rest, rfl⟩ := begins
  rw [List.head?_append, first, Option.some_or]

/-! ## Marks behind white space -/

/-- White space that may stand in front of a mark. -/
def Blank (space : List UInt8) : Prop :=
  ∀ b ∈ space, isSpace b

theorem Blank.append {more : List UInt8} (blank : Blank space) (also : Blank more) :
    Blank (space ++ more) :=
  List.forall_mem_append.mpr ⟨blank, also⟩

/-- The marks that tell a type behind white space: a tag in any case with the byte that ends
it, and the declaration of a document. -/
inductive Mark : List UInt8 → String → Prop
  | tag {tag : List UInt8} {close : UInt8} (listed : tag.map lower ∈ htmlTags)
      (closes : endsTag close) : Mark (tag ++ [close]) html
  | declaration : Mark (Path.ofString "<?xml") xml

/-- The marks in small letters. -/
def smallMarks : List (List UInt8 × String) :=
  htmlTags.flatMap (fun tag => [(tag ++ [0x20], html), (tag ++ [0x3E], html)]) ++
    [(Path.ofString "<?xml", xml)]

/-- A space is in a tag only where no tag ends before it. -/
theorem prefixFree_smallMarks :
    PrefixFree fun mark type => (mark, type) ∈ smallMarks := by
  have apart : ∀ m ∈ smallMarks, ∀ n ∈ smallMarks, m.1 <+: n.1 → m = n := by
    decide +kernel
  intro m type n type' first second begins
  exact Prod.mk.inj (apart _ first _ second begins)

theorem endsTag_iff : endsTag close = true ↔ close = 0x20 ∨ close = 0x3E := by
  simp [endsTag]

theorem lower_of_endsTag (closes : endsTag close) : lower close = close := by
  rcases endsTag_iff.mp closes with rfl | rfl <;> rfl

theorem Mark.small (known : Mark mark type) : (mark.map lower, type) ∈ smallMarks := by
  cases known with
  | @tag tag close listed closes =>
      rw [List.map_append, List.map_singleton, lower_of_endsTag closes]
      refine List.mem_append_left _ (List.mem_flatMap.mpr ⟨_, listed, ?_⟩)
      rcases endsTag_iff.mp closes with rfl | rfl <;> simp
  | declaration => decide

theorem Mark.prefixFree : PrefixFree Mark := by
  intro m type n type' first second begins
  obtain ⟨same, types⟩ := prefixFree_smallMarks first.small second.small (begins.map lower)
  refine ⟨begins.eq_of_length ?_, types⟩
  simpa using congrArg List.length same

theorem eq_angle_of_lower (same : lower b = 0x3C) : b = 0x3C := by
  grind [lower]

theorem Mark.head? (known : Mark mark type) : mark.head? = some 0x3C := by
  have angle : ∀ m ∈ smallMarks, m.1.head? = some 0x3C := by decide +kernel
  have small := angle _ known.small
  rw [List.head?_map, Option.map_eq_some_iff] at small
  obtain ⟨b, first, same⟩ := small
  rw [first, eq_angle_of_lower same]

/-- White space in front of a mark is all that trimming takes away. -/
theorem Mark.trim (known : Mark mark type) (blank : Blank space) (rest : List UInt8) :
    (space ++ mark ++ rest).dropWhile isSpace = mark ++ rest := by
  obtain ⟨more, rfl⟩ := List.head?_eq_some_iff.mp known.head?
  rw [List.append_assoc, List.dropWhile_append_of_pos blank, List.cons_append,
    List.dropWhile_cons_of_neg (by decide)]

/-! ## Starts without white space -/

/-- The starts that tell a type only at the very start of content. -/
inductive Magic : List UInt8 → String → Prop
  | listed {start : List UInt8} {type : String}
      (member : (start, type) ∈ byteOrderMarks ++ signatures) : Magic start type
  | image {size : List UInt8} (four : size.length = 4) :
      Magic (Path.ofString "RIFF" ++ (size ++ Path.ofString "WEBP")) "image/webp"

/-- The bytes that white space and marks begin with. -/
def opensMarkup (b : UInt8) : Bool :=
  isSpace b || b = 0x3C

/-- No listed start goes on to a container or to markup. -/
theorem exists_head?_of_listed (member : (s, type) ∈ byteOrderMarks ++ signatures) :
    ∃ b ∈ s.head?, b ≠ 0x52 ∧ opensMarkup b = false := by
  have heads : ∀ e ∈ byteOrderMarks ++ signatures,
      ∃ b ∈ e.1.head?, b ≠ 0x52 ∧ opensMarkup b = false := by
    decide +kernel
  exact heads _ member

theorem Magic.prefixFree : PrefixFree Magic := by
  have apart : ∀ m ∈ byteOrderMarks ++ signatures, ∀ n ∈ byteOrderMarks ++ signatures,
      m.1 <+: n.1 → m = n := by decide +kernel
  intro s type s' type' first second begins
  cases first with
  | listed member =>
      obtain ⟨b, head, other, -⟩ := exists_head?_of_listed member
      cases second with
      | listed member' => exact Prod.mk.inj (apart _ member _ member' begins)
      | image four => exact absurd (Option.some.inj (head?_of_begins begins head)).symm other
  | image four =>
      cases second with
      | listed member' =>
          obtain ⟨b, head, other, -⟩ := exists_head?_of_listed member'
          have same := head?_of_begins (b := 0x52) begins rfl
          exact absurd (Option.some.inj (head.symm.trans same)) other
      | image four' => exact ⟨begins.eq_of_length (by simp [four, four']), rfl⟩

theorem Magic.exists_head? (known : Magic s type) :
    ∃ b, s.head? = some b ∧ opensMarkup b = false := by
  cases known with
  | listed member =>
      obtain ⟨b, head, -, other⟩ := exists_head?_of_listed member
      exact ⟨b, head, other⟩
  | image four => exact ⟨0x52, rfl, by decide⟩

theorem Magic.ne_markup (known : Magic s type) : type ≠ html ∧ type ≠ xml := by
  have others : ∀ e ∈ byteOrderMarks ++ signatures, e.2 ≠ html ∧ e.2 ≠ xml := by
    decide +kernel
  cases known with
  | listed member => exact others _ member
  | image four => decide

/-! ## Signs -/

/-- The signs of a type at the start of content. -/
inductive Sign : List UInt8 → String → Prop
  | magic {s : List UInt8} {type : String} (known : Magic s type) : Sign s type
  | markup {space mark : List UInt8} {type : String} (blank : Blank space)
      (known : Mark mark type) : Sign (space ++ mark) type

theorem exists_head?_of_mark (blank : Blank space) (known : Mark mark type) :
    ∃ b, (space ++ mark).head? = some b ∧ opensMarkup b = true := by
  cases space with
  | nil => exact ⟨0x3C, known.head?, by decide⟩
  | cons b more => exact ⟨b, rfl, by simp [opensMarkup, blank b List.mem_cons_self]⟩

/-- No sign begins another one. -/
theorem Sign.prefixFree : PrefixFree Sign := by
  -- The first byte tells whether a sign is markup.
  have apart {s s' : List UInt8} {b b' : UInt8} (begins : s <+: s') (head : s.head? = some b)
      (head' : s'.head? = some b') : b = b' :=
    Option.some.inj ((head?_of_begins begins head).symm.trans head')
  intro s type s' type' first second begins
  cases first with
  | magic known =>
      cases second with
      | magic known' => exact Magic.prefixFree known known' begins
      | markup blank' known' =>
          obtain ⟨b, head, other⟩ := known.exists_head?
          obtain ⟨b', head', opens⟩ := exists_head?_of_mark blank' known'
          rw [apart begins head head', opens] at other
          cases other
  | @markup space mark type blank known =>
      obtain ⟨b, head, opens⟩ := exists_head?_of_mark blank known
      cases second with
      | magic known' =>
          obtain ⟨b', head', other⟩ := known'.exists_head?
          rw [apart begins head head', other] at opens
          cases opens
      | @markup space' mark' type' blank' known' =>
          -- Trimming leaves the marks, so the one begins the other.
          obtain ⟨rest, same⟩ := begins
          have trimmed : mark ++ rest = mark' := by
            have trim := known.trim blank rest
            have trim' := known'.trim blank' []
            rw [List.append_nil, List.append_nil] at trim'
            rw [← trim, same, trim']
          obtain ⟨rfl, rfl⟩ := Mark.prefixFree known known' ⟨rest, trimmed⟩
          have spaces : space = space' := by
            rw [List.append_assoc, trimmed] at same
            exact List.append_cancel_right same
          exact ⟨by rw [spaces], rfl⟩

/-! ## What the rules find -/

theorem exists_of_match?_eq_some {table : List (List UInt8 × String)}
    (found : match? table content = some type) :
    ∃ start, (start, type) ∈ table ∧ start <+: content := by
  obtain ⟨entry, first, rfl⟩ := Option.map_eq_some_iff.mp found
  have begins := List.find?_some (p := fun e : List UInt8 × String => e.1.isPrefixOf content) first
  exact ⟨entry.1, List.mem_of_find?_eq_some first, List.isPrefixOf_iff_prefix.mp begins⟩

theorem not_prefix_of_match?_eq_none {table : List (List UInt8 × String)} {start : List UInt8}
    (absent : match? table content = none) (member : (start, type) ∈ table) :
    ¬start <+: content := by
  intro begins
  have other := List.find?_eq_none.mp (Option.map_eq_none_iff.mp absent) _ member
  exact other (List.isPrefixOf_iff_prefix.mpr begins)

theorem beginsWithTag_iff {small : List UInt8} :
    beginsWithTag content small = true ↔
      ∃ tag close, tag.map lower = small ∧ endsTag close ∧ tag ++ [close] <+: content := by
  rw [beginsWithTag, Bool.and_eq_true, decide_eq_true_eq]
  constructor
  · rintro ⟨same, ends⟩
    cases next : content[small.length]? with
    | none => simp [next] at ends
    | some close =>
        refine ⟨content.take small.length, close, same, by simpa [next] using ends, ?_⟩
        have longer := List.take_add_one (l := content) (i := small.length)
        rw [next, Option.toList_some] at longer
        exact longer ▸ List.take_prefix _ _
  · rintro ⟨tag, close, rfl, closes, rest, rfl⟩
    simp [closes]

theorem mark_html_iff :
    Mark mark html ↔
      ∃ tag close, tag.map lower ∈ htmlTags ∧ endsTag close ∧ mark = tag ++ [close] := by
  constructor
  · intro known
    generalize same : html = type at known
    cases known with
    | tag listed closes => exact ⟨_, _, listed, closes, rfl⟩
    | declaration => exact absurd same (by decide)
  · rintro ⟨tag, close, listed, closes, rfl⟩
    exact .tag listed closes

theorem mark_xml_iff : Mark mark xml ↔ mark = Path.ofString "<?xml" := by
  constructor
  · intro known
    generalize same : xml = type at known
    cases known with
    | tag listed closes => exact absurd same (by decide)
    | declaration => rfl
  · rintro rfl
    exact .declaration

theorem isHtml_iff : isHtml content = true ↔ ∃ mark, Mark mark html ∧ mark <+: content := by
  rw [isHtml, List.any_eq_true]
  constructor
  · rintro ⟨small, listed, begins⟩
    obtain ⟨tag, close, rfl, closes, begins⟩ := beginsWithTag_iff.mp begins
    exact ⟨tag ++ [close], .tag listed closes, begins⟩
  · rintro ⟨mark, known, begins⟩
    obtain ⟨tag, close, listed, closes, rfl⟩ := mark_html_iff.mp known
    exact ⟨_, listed, beginsWithTag_iff.mpr ⟨tag, close, rfl, closes, begins⟩⟩

theorem isXml_iff : isXml content = true ↔ ∃ mark, Mark mark xml ∧ mark <+: content := by
  rw [isXml, List.isPrefixOf_iff_prefix]
  simp only [mark_xml_iff, exists_eq_left]

theorem isWebp_iff :
    isWebp content = true ↔
      ∃ size : List UInt8, size.length = 4 ∧
        Path.ofString "RIFF" ++ (size ++ Path.ofString "WEBP") <+: content := by
  rw [isWebp, Bool.and_eq_true, List.isPrefixOf_iff_prefix, List.isPrefixOf_iff_prefix]
  constructor
  · rintro ⟨⟨behind, rfl⟩, rest, name⟩
    have dropped : behind.drop 4 = Path.ofString "WEBP" ++ rest := name.symm
    refine ⟨behind.take 4, ?_, rest, ?_⟩
    · have lengths := congrArg List.length dropped
      rw [List.length_drop, List.length_append] at lengths
      have four : (Path.ofString "WEBP").length = 4 := by decide
      rw [List.length_take]
      omega
    · rw [List.append_assoc, List.append_assoc, ← dropped, List.take_append_drop]
  · rintro ⟨size, four, rest, rfl⟩
    refine ⟨⟨_, (List.append_assoc _ _ _).symm⟩, rest, ?_⟩
    have eight : (Path.ofString "RIFF" ++ size).length = 8 := by
      rw [List.length_append, four]
      decide
    rw [← List.append_assoc (Path.ofString "RIFF"), List.append_assoc, ← eight, List.drop_left]

/-- A mark behind white space begins content exactly if it begins what trimming leaves. -/
theorem exists_blank_prefix_iff (known : Mark mark type) :
    (∃ space, Blank space ∧ space ++ mark <+: content) ↔
      mark <+: content.dropWhile isSpace := by
  constructor
  · rintro ⟨space, blank, rest, rfl⟩
    exact ⟨rest, (known.trim blank rest).symm⟩
  · rintro ⟨rest, trimmed⟩
    refine ⟨content.takeWhile isSpace, fun b => List.mem_takeWhile_imp, rest, ?_⟩
    rw [List.append_assoc, trimmed, List.takeWhile_append_dropWhile]

/-- Some rule finds each sign. -/
theorem found_of_sign (sign : Sign s type) (begins : s <+: content) :
    match? byteOrderMarks content ≠ none ∨ isHtml (content.dropWhile isSpace) ∨
      isXml (content.dropWhile isSpace) ∨ match? signatures content ≠ none ∨ isWebp content := by
  cases sign with
  | magic known =>
      cases known with
      | listed member =>
          rcases List.mem_append.mp member with marked | signed
          · exact .inl fun absent => not_prefix_of_match?_eq_none absent marked begins
          · refine .inr (.inr (.inr (.inl fun absent => ?_)))
            exact not_prefix_of_match?_eq_none absent signed begins
      | image four => exact .inr (.inr (.inr (.inr (isWebp_iff.mpr ⟨_, four, begins⟩))))
  | markup blank known =>
      have trimmed := (exists_blank_prefix_iff known).mp ⟨_, blank, begins⟩
      cases known with
      | tag listed closes => exact .inr (.inl (isHtml_iff.mpr ⟨_, .tag listed closes, trimmed⟩))
      | declaration => exact .inr (.inr (.inl (isXml_iff.mpr ⟨_, .declaration, trimmed⟩)))

/-- The type of a window is told by a sign that begins it, or no sign does and its bytes are
those of a text or not. -/
theorem sniffWindow_cases (window : List UInt8) :
    (∃ s, Sign s (sniffWindow window) ∧ s <+: window) ∨
      (∀ s type, Sign s type → ¬s <+: window) ∧
        sniffWindow window = if window.any isBinary then octetStream else plainText := by
  rw [sniffWindow]
  cases marked : match? byteOrderMarks window with
  | some type =>
      obtain ⟨start, member, begins⟩ := exists_of_match?_eq_some marked
      exact .inl ⟨start, .magic (.listed (List.mem_append_left _ member)), begins⟩
  | none =>
      by_cases page : isHtml (window.dropWhile isSpace) = true
      · obtain ⟨mark, known, begins⟩ := isHtml_iff.mp page
        obtain ⟨space, blank, begins⟩ := (exists_blank_prefix_iff known).mpr begins
        simp only [page]
        exact .inl ⟨_, .markup blank known, begins⟩
      by_cases document : isXml (window.dropWhile isSpace) = true
      · obtain ⟨mark, known, begins⟩ := isXml_iff.mp document
        obtain ⟨space, blank, begins⟩ := (exists_blank_prefix_iff known).mpr begins
        simp only [page, document]
        exact .inl ⟨_, .markup blank known, begins⟩
      simp only [page, document]
      cases signed : match? signatures window with
      | some type =>
          obtain ⟨start, member, begins⟩ := exists_of_match?_eq_some signed
          exact .inl ⟨start, .magic (.listed (List.mem_append_right _ member)), begins⟩
      | none =>
          by_cases image : isWebp window = true
          · obtain ⟨size, four, begins⟩ := isWebp_iff.mp image
            simp only [image]
            exact .inl ⟨_, .magic (.image four), begins⟩
          · -- Only here do all the rules matter: a sign would be found by one of them.
            simp only [image]
            refine .inr ⟨fun s type sign begins => ?_, rfl⟩
            have found := found_of_sign sign begins
            simp [marked, page, document, signed, image] at found

/-- A sign in the window tells the type, whichever rules are tried before the one that looks
for it. -/
theorem sniff_of_sign (sign : Sign s type) (begins : s <+: content)
    (fits : s.length ≤ windowLength) : sniff content = type := by
  have inside : s <+: content.take windowLength := List.prefix_take_iff.mpr ⟨begins, fits⟩
  rcases sniffWindow_cases (content.take windowLength) with ⟨found, told, first⟩ | ⟨unsigned, -⟩
  · exact (Sign.prefixFree.eq_of_prefix told sign first inside).2
  · exact absurd inside (unsigned s type sign)

/-- A type other than those of unknown content was told by a sign in the window. -/
theorem exists_sign_of_sniff (known : sniff content ≠ octetStream ∧ sniff content ≠ plainText) :
    ∃ s, Sign s (sniff content) ∧ s <+: content ∧ s.length ≤ windowLength := by
  rcases sniffWindow_cases (content.take windowLength) with ⟨s, told, first⟩ | ⟨-, default⟩
  · exact ⟨s, told, List.prefix_take_iff.mp first⟩
  · rw [← sniff] at default
    split at default
    · exact absurd default known.1
    · exact absurd default known.2

/-- A sign in content tells its type exactly as far as the window reaches. -/
theorem sniff_eq_iff_of_sign (sign : Sign s type) (begins : s <+: content)
    (known : type ≠ octetStream ∧ type ≠ plainText) :
    sniff content = type ↔ s.length ≤ windowLength := by
  constructor
  · rintro rfl
    obtain ⟨told, sign', begins', fits⟩ := exists_sign_of_sniff known
    rwa [(Sign.prefixFree.eq_of_prefix sign sign' begins begins').1]
  · exact sniff_of_sign sign begins

end FleetDeploy.Content
