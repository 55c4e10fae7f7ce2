import FleetDeploy.Proofs.Content.Sign

/-!
# Specific types are stable

A type that was told by a sign does not depend on what follows the sign.  For a page or a
document it does not depend on the white space in front either, as long as the tag with the
byte that ends it, or the declaration, lies in the window; and the letters of a tag may be
written in any case.
-/

namespace FleetDeploy.Content

variable {content space mark tag small : List UInt8} {close : UInt8}

/-- A page or a document opens with white space and a mark. -/
theorem exists_mark_of_sign {type : String} (sign : Sign content type)
    (markup : type = html ∨ type = xml) :
    ∃ space mark, content = space ++ mark ∧ Blank space ∧ Mark mark type := by
  cases sign with
  | magic known =>
      rcases markup with page | document
      · exact absurd page known.ne_markup.1
      · exact absurd document known.ne_markup.2
  | markup blank known => exact ⟨_, _, rfl, blank, known⟩

/-- Of the tags of a page, the one that content opens with is the only one that is found. -/
theorem beginsWithTag_window_iff (blank : Blank space) (listed : tag.map lower ∈ htmlTags)
    (closes : endsTag close) (begins : space ++ (tag ++ [close]) <+: content)
    (fits : (space ++ (tag ++ [close])).length ≤ windowLength) (smallListed : small ∈ htmlTags) :
    beginsWithTag ((content.take windowLength).dropWhile isSpace) small = true ↔
      small = tag.map lower := by
  have known : Mark (tag ++ [close]) html := .tag listed closes
  have opens : tag ++ [close] <+: (content.take windowLength).dropWhile isSpace :=
    (exists_blank_prefix_iff known).mp ⟨space, blank, List.prefix_take_iff.mpr ⟨begins, fits⟩⟩
  rw [beginsWithTag_iff]
  constructor
  · rintro ⟨found, foundClose, rfl, foundCloses, foundOpens⟩
    have same := (Mark.prefixFree.eq_of_prefix (.tag smallListed foundCloses) known foundOpens
      opens).1
    rw [(List.append_inj' same rfl).1]
  · rintro rfl
    exact ⟨tag, close, rfl, closes, opens⟩

/-- White space in front of a mark leaves its type, exactly as far as the mark stays in the
window. -/
theorem sniff_indent_iff {type : String} (blank : Blank space) (known : Mark mark type)
    (specific : type ≠ octetStream ∧ type ≠ plainText) (rest : List UInt8) {w : List UInt8}
    (indent : Blank w) (e : List UInt8) :
    sniff (w ++ (space ++ mark ++ rest) ++ e) = type ↔ (w ++ space ++ mark).length ≤ 512 := by
  have begins : w ++ space ++ mark <+: w ++ (space ++ mark ++ rest) ++ e :=
    ⟨rest ++ e, by simp only [List.append_assoc]⟩
  exact sniff_eq_iff_of_sign (.markup (indent.append blank) known) begins specific

/-- A type other than those of unknown content is kept whatever is appended.  If it is that of
a page or of a document, then the content opens with white space and a mark, and the type is
kept behind more white space exactly if all of that and the mark fit in the window.  For a page
the mark is the tag that was found and the byte that ends it, and the same holds once the
letters of the tag are written in another case. -/
theorem sniff_stable {d : List UInt8} (known : sniff d ≠ octetStream ∧ sniff d ≠ plainText) :
    (∀ e, sniff (d ++ e) = sniff d) ∧
      (sniff d = html ∨ sniff d = xml →
        ∃ space mark rest, d = space ++ mark ++ rest ∧ Blank space ∧ Mark mark (sniff d)) ∧
      (∀ space mark rest, d = space ++ mark ++ rest → Blank space → Mark mark (sniff d) →
        ∀ w e, Blank w →
          (sniff (w ++ d ++ e) = sniff d ↔ (w ++ space ++ mark).length ≤ 512)) ∧
      ∀ space tag close rest, d = space ++ (tag ++ [close]) ++ rest → Blank space →
        tag.map lower ∈ htmlTags → endsTag close → sniff d = html →
          (∀ small ∈ htmlTags,
            beginsWithTag ((d.take 512).dropWhile isSpace) small = true ↔
              small = tag.map lower) ∧
          ∀ other, other.map lower = tag.map lower → ∀ w e, Blank w →
            (sniff (w ++ (space ++ (other ++ [close]) ++ rest) ++ e) = sniff d ↔
              (w ++ space ++ (tag ++ [close])).length ≤ 512) := by
  obtain ⟨s, sign, begins, fits⟩ := exists_sign_of_sniff known
  refine ⟨fun e => ?_, fun markup => ?_, ?_, ?_⟩
  · exact sniff_of_sign sign (begins.trans (List.prefix_append d e)) fits
  · obtain ⟨space, mark, rfl, blank, shown⟩ := exists_mark_of_sign sign markup
    obtain ⟨rest, split⟩ := begins
    exact ⟨space, mark, rest, split.symm, blank, shown⟩
  · intro space mark rest split blank shown w e indent
    have stays := sniff_indent_iff blank shown known rest indent e
    rwa [← split] at stays
  · intro space tag close rest split blank listed closes page
    rw [page] at known
    have opens : space ++ (tag ++ [close]) <+: d := ⟨rest, split.symm⟩
    have inside : (space ++ (tag ++ [close])).length ≤ windowLength :=
      (sniff_eq_iff_of_sign (.markup blank (.tag listed closes)) opens known).mp page
    refine ⟨fun small => beginsWithTag_window_iff blank listed closes opens inside, ?_⟩
    intro other same w e indent
    have length : other.length = tag.length := by simpa using congrArg List.length same
    have stays := sniff_indent_iff blank (.tag (same ▸ listed) closes) known rest indent e
    rw [page, stays]
    simp only [List.length_append, length]

/-- A script behind as many line ends as the window has room for, and one more. -/
theorem script_stable :
    let d := [0x09] ++ (Path.ofString "<Script" ++ [0x20]) ++ [0x00]
    let recased := [0x09] ++ (Path.ofString "<sCRIPT" ++ [0x20]) ++ [0x00]
    let lines := fun count => List.replicate count (0x0D : UInt8)
    (sniff d ≠ octetStream ∧ sniff d ≠ plainText) ∧ sniff (d ++ [0xFF]) = html ∧
      sniff (lines 503 ++ d ++ [0xFF]) = html ∧ sniff (lines 503 ++ recased ++ [0xFF]) = html ∧
      sniff (lines 504 ++ d ++ [0xFF]) ≠ html := by
  intro d recased lines
  have page : sniff d = html := by decide
  have known : sniff d ≠ octetStream ∧ sniff d ≠ plainText := by
    rw [page]
    decide
  have blank : Blank [0x09] := by
    simp [Blank, isSpace]
  have indent (count : Nat) : Blank (lines count) := by
    intro b member
    rw [List.eq_of_mem_replicate member]
    rfl
  have tag : (Path.ofString "<Script").map lower ∈ htmlTags := by decide
  obtain ⟨appended, -, indented, inAnyCase⟩ := sniff_stable known
  have shown : Mark (Path.ofString "<Script" ++ [0x20]) (sniff d) := page ▸ .tag tag rfl
  have kept (count : Nat) := indented [0x09] _ [0x00] rfl blank shown (lines count) [0xFF]
    (indent count)
  have recasedKept := (inAnyCase [0x09] _ 0x20 [0x00] rfl blank tag rfl page).2
    (Path.ofString "<sCRIPT") (by decide) (lines 503) [0xFF] (indent 503)
  rw [page] at appended kept recasedKept
  have length (count : Nat) :
      (lines count ++ [0x09] ++ (Path.ofString "<Script" ++ [0x20])).length = count + 9 := by
    simp only [lines, List.length_append, List.length_replicate]
    rfl
  refine ⟨known, appended _, (kept 503).mpr (length 503).le, recasedKept.mpr (length 503).le, ?_⟩
  intro verdict
  have fits := (kept 504).mp verdict
  rw [length] at fits
  omega

end FleetDeploy.Content
