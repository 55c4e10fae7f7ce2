import FleetDeploy.Proofs.Local.Path
import FleetDeploy.Proofs.Store.Key
import FleetDeploy.Proofs.Text.Utf8

/-!
# The keys of relative paths

In a key a backslash is written as a slash, also where it is a part of a name.  So what
tells the keys of files apart is not their names but the segments of these, which both
slashes and backslashes divide.
-/

namespace FleetDeploy

namespace Path

/-- A byte that may be a part of a name. -/
def backslash : UInt8 :=
  0x5C

/-- A backslash as a slash. -/
def forward (b : UInt8) : UInt8 :=
  if b = backslash then slash else b

/-- The parts of names that slashes and backslashes divide. -/
def segments (names : List (List UInt8)) : List (List UInt8) :=
  names.flatMap (split backslash)

theorem split_map_forward {name : List UInt8} (plain : slash ∉ name) :
    split slash (name.map forward) = split backslash name := by
  induction name with
  | nil => rfl
  | cons b rest ih =>
      rw [List.mem_cons, not_or] at plain
      rw [List.map_cons, split, split, ih plain.2, forward]
      by_cases back : b = backslash
      · rw [if_pos back, if_pos rfl, if_pos back]
      · rw [if_neg back, if_neg (Ne.symm plain.1), if_neg back]

/-- Without backslashes the segments are the names. -/
theorem segments_of_plain {names : List (List UInt8)}
    (plain : ∀ name ∈ names, backslash ∉ name) : segments names = names := by
  rw [segments, List.flatMap_congr fun name member => split_of_notMem (plain name member)]
  exact List.flatMap_singleton' names

end Path

namespace Key

open FleetDeploy.Path (IsName slash backslash segments)
open Text.Utf8 (IsText encode)

/-- A character that is forward has the bytes that are. -/
theorem encodeChar_forward (c : Char) :
    String.utf8EncodeChar (forward c) = (String.utf8EncodeChar c).map Path.forward := by
  by_cases back : c = '\\'
  · subst back
    decide
  · rw [forward, if_neg back]
    conv_lhs => rw [← List.map_id (String.utf8EncodeChar c)]
    apply List.map_congr_left
    intro b member
    symm
    apply if_neg
    rintro rfl
    by_cases ascii : c.toNat < 0x80
    · rw [Text.Utf8.encodeChar_of_lt ascii, List.mem_singleton] at member
      have number := congrArg UInt8.toNat member
      rw [Text.Utf8.toNat_ofNat_of_lt (by omega)] at number
      rw [← Char.ofNat_toNat c, ← number] at back
      exact back rfl
    · exact absurd (Text.Utf8.le_of_mem_encodeChar (Nat.le_of_not_lt ascii) member) (by decide)

theorem encode_map_forward (text : List Char) :
    encode (text.map forward) = (encode text).map Path.forward := by
  induction text with
  | nil => rfl
  | cons c text ih =>
      rw [List.map_cons, Text.Utf8.encode_cons, Text.Utf8.encode_cons, List.map_append,
        encodeChar_forward, ih]

variable {names others : List (List UInt8)}

/-- The bytes of a key are the names with forward slashes, put together. -/
theorem encode_relative (legal : ∀ name ∈ names, IsName name)
    (texts : ∀ name ∈ names, IsText name) :
    encode (relative ([slash].intercalate names)) =
      [slash].intercalate (names.map (·.map Path.forward)) := by
  rw [relative, Path.names_intercalate legal, Text.Utf8.encode_intercalate, List.map_map]
  have separator : encode ['/'] = [slash] := by decide
  rw [separator]
  congr 1
  apply List.map_congr_left
  intro name member
  obtain ⟨text, rfl⟩ := texts name member
  rw [Function.comp_apply, Text.Utf8.decodeLenient_encode, encode_map_forward]

/-- The slashes in a key divide the segments of the names. -/
theorem split_encode_relative (legal : ∀ name ∈ names, IsName name)
    (texts : ∀ name ∈ names, IsText name) (some : names ≠ []) :
    Path.split slash (encode (relative ([slash].intercalate names))) = segments names := by
  rw [encode_relative legal texts, Path.split_intercalate (by simpa using some), List.flatMap_map]
  exact List.flatMap_congr fun name member => Path.split_map_forward (legal name member).2.2.2

/-- Files have the same key exactly if their names have the same segments. -/
theorem ofFile_eq_iff (legal : ∀ name ∈ names, IsName name) (texts : ∀ name ∈ names, IsText name)
    (some : names ≠ []) (otherLegal : ∀ name ∈ others, IsName name)
    (otherTexts : ∀ name ∈ others, IsText name) (otherSome : others ≠ []) (dest : List Char) :
    ofFile dest ([slash].intercalate names) = ofFile dest ([slash].intercalate others) ↔
      segments names = segments others := by
  rw [ofFile, ofFile, List.append_cancel_left_eq, ← Text.Utf8.encode_injective.eq_iff,
    ← split_encode_relative legal texts some,
    ← split_encode_relative otherLegal otherTexts otherSome]
  constructor
  · exact congrArg (Path.split slash)
  · intro same
    rw [Path.split_eq_splitOn, Path.split_eq_splitOn] at same
    simpa using congrArg [slash].intercalate same

/-! ## Keys inside a directory -/

/-- A key that consists of a directory and one or more segments, none of them empty. -/
def IsInside (dir : List Char) (key : Key) : Prop :=
  ∃ segments : List (List Char), segments ≠ [] ∧ (∀ text ∈ segments, text ≠ [] ∧ '/' ∉ text) ∧
    key = directory dir ++ ['/'].intercalate segments

theorem IsInside.ne_directory {dir : List Char} {key : Key} (inside : IsInside dir key) :
    key ≠ directory dir := by
  obtain ⟨segments, some, all, rfl⟩ := inside
  intro same
  obtain ⟨first, rest, rfl⟩ := List.exists_cons_of_ne_nil some
  have empty := List.append_right_eq_self.mp same
  have begun := (all first List.mem_cons_self).1
  cases rest with
  | nil => exact begun (by simpa using empty)
  | cons next others =>
      rw [List.intercalate_cons_cons] at empty
      simp at empty

/-- Without backslashes in its names, the key of a file has their texts for its segments. -/
theorem isInside_ofFile (legal : ∀ name ∈ names, IsName name)
    (plain : ∀ name ∈ names, backslash ∉ name) (some : names ≠ []) (dest : List Char) :
    IsInside dest (ofFile dest ([slash].intercalate names)) := by
  refine ⟨names.map Text.Utf8.decodeLenient, by simpa using some, ?_, ?_⟩
  · rw [List.forall_mem_map]
    intro name member
    obtain ⟨nonempty, -, -, undivided⟩ := legal name member
    refine ⟨Text.Utf8.decodeLenient_ne_nil nonempty, fun divided => undivided ?_⟩
    exact Text.Utf8.mem_of_mem_decodeLenient (by decide) divided
  · rw [ofFile, relative, Path.names_intercalate legal]
    congr 2
    apply List.map_congr_left
    intro name member
    rw [map_forward_eq_self_iff]
    intro marked
    exact plain name member (Text.Utf8.mem_of_mem_decodeLenient (by decide) marked)

end Key

end FleetDeploy
