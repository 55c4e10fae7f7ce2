import FleetDeploy.Proofs.Text.Numeral
import FleetDeploy.Store.Objects
import Mathlib.Data.List.Infix
import Mathlib.Data.List.TakeWhile

/-!
# The layout of keys

The directory of a release is the prefix of its keys that ends with the slash
after its number, so that the directories of different releases do not overlap,
and the directories of a release's assets are below it.
-/

namespace FleetDeploy.Key

open Text

variable {root app : List Char} {version : UInt64}

/-! ## Names in a directory -/

/-- A name in front of a slash ends there. -/
theorem takeWhile_slash {name : List Char} (plain : '/' ∉ name) (rest : List Char) :
    (name ++ '/' :: rest).takeWhile (· ≠ '/') = name := by
  have all : ∀ c ∈ name, decide (c ≠ '/') = true := by
    intro c member
    apply decide_eq_true
    rintro rfl
    exact plain member
  rw [List.takeWhile_append_of_pos all, List.takeWhile_cons_of_neg (by simp), List.append_nil]

/-- Directories of different names do not overlap. -/
theorem eq_of_name_below {stem key first second : List Char} (firstPlain : '/' ∉ first)
    (secondPlain : '/' ∉ second) (one : stem ++ first ++ ['/'] <+: key)
    (two : stem ++ second ++ ['/'] <+: key) : first = second := by
  obtain ⟨x, rfl⟩ := one
  obtain ⟨y, equal⟩ := two
  simp only [List.append_assoc, List.append_cancel_left_eq, List.singleton_append] at equal
  have names := congrArg (List.takeWhile (· ≠ '/')) equal
  rw [takeWhile_slash firstPlain, takeWhile_slash secondPlain] at names
  exact names.symm

theorem eq_of_numeral_below {stem key : List Char} {m n : Nat}
    (first : stem ++ Numeral.render m ++ ['/'] <+: key)
    (second : stem ++ Numeral.render n ++ ['/'] <+: key) : m = n :=
  Numeral.render_injective (eq_of_name_below (Numeral.slash_notMem_render m)
    (Numeral.slash_notMem_render n) first second)

/-! ## The directories of releases and assets -/

theorem forward_of_isDigit {c : Char} (digit : Numeral.isDigit c = true) : forward c = c := by
  apply if_neg
  rintro rfl
  exact absurd digit (by decide)

theorem map_forward_render (n : Nat) : (Numeral.render n).map forward = Numeral.render n := by
  conv_rhs => rw [← List.map_id (Numeral.render n)]
  exact List.map_congr_left fun c member =>
    forward_of_isDigit (Numeral.isDigit_of_mem_render member)

/-- The directory of a release ends with a digit, in front of its slash. -/
theorem exists_versionRoot_eq (root app : List Char) (version : UInt64) :
    ∃ start last, versionRoot root app version = start ++ [last] ∧
      Numeral.isDigit last = true := by
  have nonempty := Numeral.render_ne_nil version.toNat
  refine ⟨appRoot root app ++ (Numeral.render version.toNat).dropLast,
    (Numeral.render version.toNat).getLast nonempty, ?_,
    Numeral.isDigit_of_mem_render (List.getLast_mem nonempty)⟩
  rw [versionRoot, List.append_assoc, List.dropLast_append_getLast]

theorem trimSlashes_versionRoot :
    trimSlashes (versionRoot root app version) = versionRoot root app version := by
  obtain ⟨start, last, equal, digit⟩ := exists_versionRoot_eq root app version
  have plain : ¬last = '/' := by
    rintro rfl
    exact absurd digit (by decide)
  rw [equal, trimSlashes, trimEnd, List.reverse_append, List.reverse_singleton,
    List.singleton_append, List.dropWhile_cons_of_neg (by simpa using plain),
    List.reverse_cons, List.reverse_reverse]

theorem map_forward_append_slash (dir : List Char) :
    (dir ++ ['/']).map forward = dir.map forward ++ ['/'] := by
  rw [List.map_append]
  rfl

/-- A directory that has its slash already gets no other. -/
theorem directory_append_slash (dir : List Char) :
    directory (dir ++ ['/']) = (dir ++ ['/']).map forward := by
  rw [directory, map_forward_append_slash]
  exact if_pos List.getLast?_concat

theorem directory_versionRoot :
    directory (versionRoot root app version) =
      (versionRoot root app version).map forward ++ ['/'] := by
  obtain ⟨start, last, equal, digit⟩ := exists_versionRoot_eq root app version
  apply if_neg
  rw [equal, List.map_append, List.map_singleton, List.getLast?_concat,
    forward_of_isDigit digit]
  rintro ⟨⟩
  exact absurd digit (by decide)

theorem directory_staticDest (place : Nat) :
    directory (staticDest (versionRoot root app version) place) =
      directory (versionRoot root app version) ++ Numeral.render place ++ ['/'] := by
  rw [staticDest, trimSlashes_versionRoot, directory_versionRoot, directory_append_slash,
    map_forward_append_slash, List.map_append, List.map_cons, map_forward_render]
  simp [forward]

/-- The directories of assets are below the directory of their release. -/
theorem directory_versionRoot_prefix_staticDest (place : Nat) :
    directory (versionRoot root app version) <+:
      directory (staticDest (versionRoot root app version) place) := by
  rw [directory_staticDest, List.append_assoc]
  exact List.prefix_append _ _

/-- The key of a file is below the directory it is uploaded to. -/
theorem directory_prefix_ofFile (dest : List Char) (path : Path) :
    directory dest <+: ofFile dest path :=
  List.prefix_append _ _

theorem directory_versionRoot_eq (version : UInt64) :
    directory (versionRoot root app version) =
      (appRoot root app).map forward ++ Numeral.render version.toNat ++ ['/'] := by
  rw [directory_versionRoot, versionRoot, List.map_append, map_forward_render]

/-- The directories of different releases do not overlap. -/
theorem eq_of_directory_versionRoot_prefix {v w : UInt64} {key : Key}
    (first : directory (versionRoot root app v) <+: key)
    (second : directory (versionRoot root app w) <+: key) : v = w := by
  rw [directory_versionRoot_eq] at first second
  exact UInt64.toNat_inj.mp (eq_of_numeral_below first second)

/-- The directories of different assets of a release do not overlap. -/
theorem eq_of_directory_staticDest_prefix {m n : Nat} {key : Key}
    (first : directory (staticDest (versionRoot root app version) m) <+: key)
    (second : directory (staticDest (versionRoot root app version) n) <+: key) : m = n := by
  rw [directory_staticDest] at first second
  exact eq_of_numeral_below first second

theorem map_forward_eq_self_iff {text : List Char} : text.map forward = text ↔ '\\' ∉ text := by
  conv_lhs => rhs; rw [← List.map_id text]
  rw [List.map_inj_left]
  constructor
  · intro same member
    exact absurd (same _ member) (by decide)
  · intro plain c member
    apply if_neg
    rintro rfl
    exact plain member

/-! ## The directories of apps -/

theorem directory_appRoot : directory (appRoot root app) = (appRoot root app).map forward :=
  directory_append_slash _

/-- The directories of releases are below the directory of their app. -/
theorem directory_appRoot_prefix_versionRoot (version : UInt64) :
    directory (appRoot root app) <+: directory (versionRoot root app version) := by
  rw [directory_appRoot, directory_versionRoot_eq, List.append_assoc]
  exact List.prefix_append _ _

/-- The directories of different apps do not overlap, even if the name of one begins
with the name of the other. -/
theorem eq_of_directory_appRoot_prefix {other key : List Char} (plain : '/' ∉ app ∧ '\\' ∉ app)
    (otherPlain : '/' ∉ other ∧ '\\' ∉ other) (first : directory (appRoot root app) <+: key)
    (second : directory (appRoot root other) <+: key) : app = other := by
  have name {app : List Char} (plain : '\\' ∉ app) : directory (appRoot root app) =
      ((trimSlashes root ++ ['/']).map forward) ++ app ++ ['/'] := by
    rw [directory_appRoot, appRoot, map_forward_append_slash, map_forward_append_slash,
      List.map_append, List.map_cons, map_forward_eq_self_iff.mpr plain]
    simp [forward]
  rw [name plain.2] at first
  rw [name otherPlain.2] at second
  exact eq_of_name_below plain.1 otherPlain.1 first second

/-! ## Backslashes -/

/-- What begins with a text whose slashes are forward begins with the text itself only
if there was no backslash in it. -/
theorem prefix_iff_of_forward {text key : List Char} (inside : text.map forward <+: key) :
    text <+: key ↔ '\\' ∉ text := by
  rw [← map_forward_eq_self_iff]
  constructor
  · intro same
    have shorter := List.prefix_of_prefix_length_le inside same (List.length_map _).le
    exact shorter.eq_of_length (List.length_map _)
  · intro same
    rwa [same] at inside

theorem mem_trimSlashes_iff {text : List Char} {c : Char} (other : c ≠ '/') :
    c ∈ trimSlashes text ↔ c ∈ text := by
  have split : c ∈ text.reverse ↔ c ∈ text.reverse.dropWhile (decide <| · = '/') := by
    conv_lhs =>
      rw [← List.takeWhile_append_dropWhile (p := (decide <| · = '/')) (l := text.reverse)]
    rw [List.mem_append, or_iff_right]
    intro member
    exact other (by simpa using List.mem_takeWhile_imp member)
  rw [trimSlashes, trimEnd, List.mem_reverse, ← split, List.mem_reverse]

theorem backslash_notMem_render (n : Nat) : '\\' ∉ Numeral.render n :=
  fun member => absurd (Numeral.isDigit_of_mem_render member) (by decide)

theorem backslash_notMem_appRoot_iff : '\\' ∉ appRoot root app ↔ '\\' ∉ root ∧ '\\' ∉ app := by
  simp [appRoot, mem_trimSlashes_iff (show '\\' ≠ '/' by decide)]

theorem backslash_notMem_versionRoot_iff :
    '\\' ∉ versionRoot root app version ↔ '\\' ∉ root ∧ '\\' ∉ app := by
  rw [versionRoot, List.mem_append, not_or, backslash_notMem_appRoot_iff]
  exact and_iff_left (backslash_notMem_render _)

theorem backslash_notMem_staticDest_iff {place : Nat} :
    '\\' ∉ staticDest (versionRoot root app version) place ↔ '\\' ∉ root ∧ '\\' ∉ app := by
  rw [← @backslash_notMem_versionRoot_iff root app version, staticDest, trimSlashes_versionRoot]
  simp [backslash_notMem_render]

/-! ## Listing releases -/

theorem below?_append (stem rest : List Char) : below? stem (stem ++ rest) = some rest := by
  rw [below?, if_pos (by simp), List.drop_left]

/-- The part of a text up to its first slash. -/
theorem upTo?_slash {name rest : List Char} (plain : '/' ∉ name) :
    Objects.upTo? ['/'] (name ++ '/' :: rest) = some (name ++ ['/']) := by
  induction name with
  | nil => rfl
  | cons c name ih =>
      rw [List.mem_cons, not_or] at plain
      have apart : ¬['/'].isPrefixOf (c :: (name ++ '/' :: rest)) = true := by
        simpa using plain.1
      rw [List.cons_append, Objects.upTo?, if_neg apart, ih plain.2]
      rfl

theorem below?_eq_some_iff {stem key rest : List Char} :
    below? stem key = some rest ↔ key = stem ++ rest := by
  constructor
  · intro found
    by_cases within : stem.isPrefixOf key
    · rw [below?, if_pos within] at found
      obtain ⟨tail, rfl⟩ := List.isPrefixOf_iff_prefix.mp within
      rw [List.drop_left] at found
      exact congrArg (stem ++ ·) (Option.some.inj found)
    · rw [below?, if_neg within] at found
      cases found
  · rintro rfl
    exact below?_append stem rest

/-- A text with a slash in it has a part up to its first slash. -/
theorem exists_name_of_upTo?_slash {text part : List Char}
    (found : Objects.upTo? ['/'] text = some part) :
    ∃ name, '/' ∉ name ∧ part = name ++ ['/'] ∧ part <+: text := by
  induction text generalizing part with
  | nil => cases found
  | cons c text ih =>
      by_cases slash : ['/'].isPrefixOf (c :: text)
      · rw [Objects.upTo?, if_pos slash] at found
        cases found
        exact ⟨[], List.not_mem_nil, rfl, List.isPrefixOf_iff_prefix.mp slash⟩
      · rw [Objects.upTo?, if_neg slash, Option.map_eq_some_iff] at found
        obtain ⟨rest, further, rfl⟩ := found
        obtain ⟨name, plain, rfl, inside⟩ := ih further
        have other : '/' ≠ c := by simpa using slash
        refine ⟨c :: name, ?_, rfl, (List.prefix_cons_inj c).mpr inside⟩
        rw [List.mem_cons, not_or]
        exact ⟨other, plain⟩

/-- A key is listed by a directory if the directory is the stem with one more name, and
the key is in it. -/
theorem directory?_slash_eq_some_iff {stem key dir : Key} :
    Objects.directory? stem (some ['/']) key = some dir ↔
      ∃ name, '/' ∉ name ∧ dir = stem ++ name ++ ['/'] ∧ dir <+: key := by
  constructor
  · intro listed
    obtain ⟨rest, below, listed⟩ := Option.bind_eq_some_iff.mp listed
    change (Objects.upTo? ['/'] rest).bind _ = _ at listed
    obtain ⟨part, found, equal⟩ := Option.bind_eq_some_iff.mp listed
    obtain ⟨name, plain, rfl, inside⟩ := exists_name_of_upTo?_slash found
    cases equal
    rw [below?_eq_some_iff.mp below]
    refine ⟨name, plain, (List.append_assoc _ _ _).symm, ?_⟩
    exact (List.prefix_append_right_inj stem).mpr inside
  · rintro ⟨name, plain, rfl, rest, rfl⟩
    simp only [List.append_assoc, Objects.directory?, below?_append]
    change (Objects.upTo? ['/'] (name ++ '/' :: rest)).bind _ = _
    rw [upTo?_slash plain]
    rfl

/-- All keys in a directory are listed by the same directory. -/
theorem directory?_slash_of_prefix {stem key other dir : Key}
    (listed : Objects.directory? stem (some ['/']) key = some dir) (inside : dir <+: other) :
    Objects.directory? stem (some ['/']) other = some dir := by
  obtain ⟨name, plain, equal, -⟩ := directory?_slash_eq_some_iff.mp listed
  exact directory?_slash_eq_some_iff.mpr ⟨name, plain, equal, inside⟩

/-- The plain directories of different numbers do not overlap. -/
theorem eq_of_versionRoot_prefix {v w : UInt64} {key : Key}
    (first : versionRoot root app v ++ ['/'] <+: key)
    (second : versionRoot root app w ++ ['/'] <+: key) : v = w :=
  UInt64.toNat_inj.mp (eq_of_numeral_below first second)

/-- Below the directory of an app, a key is listed by the name that follows. -/
theorem directory?_of_versionRoot_prefix {key : Key}
    (inside : versionRoot root app version ++ ['/'] <+: key) :
    Objects.directory? (appRoot root app) (some ['/']) key =
      some (versionRoot root app version ++ ['/']) :=
  directory?_slash_eq_some_iff.mpr
    ⟨Numeral.render version.toNat, Numeral.slash_notMem_render _, rfl, inside⟩

/-- The name of a release's directory is its number, whatever follows the slash. -/
theorem parseVersion_versionRoot_append (rest : List Char) :
    parseVersion (appRoot root app) (versionRoot root app version ++ '/' :: rest) =
      some version := by
  have name : (Numeral.render version.toNat ++ '/' :: rest).takeWhile (· ≠ '/') =
      Numeral.render version.toNat := takeWhile_slash (Numeral.slash_notMem_render _) rest
  rw [versionRoot, List.append_assoc, parseVersion, below?_append]
  simp only [Option.bind_eq_bind, Option.bind_some, name, Numeral.parse_render]
  rfl

theorem parseVersion_versionRoot :
    parseVersion (appRoot root app) (versionRoot root app version ++ ['/']) = some version :=
  parseVersion_versionRoot_append []

theorem directory_versionRoot_of_plain (plainRoot : '\\' ∉ root) (plainApp : '\\' ∉ app) :
    directory (versionRoot root app version) = versionRoot root app version ++ ['/'] := by
  rw [directory_versionRoot, map_forward_eq_self_iff.mpr
    (backslash_notMem_versionRoot_iff.mpr ⟨plainRoot, plainApp⟩)]

/-- The listed directory of a key below a release's directory is that directory. -/
theorem directory?_of_prefix (plainRoot : '\\' ∉ root) (plainApp : '\\' ∉ app) {key : Key}
    (inside : directory (versionRoot root app version) <+: key) :
    Objects.directory? (appRoot root app) (some ['/']) key =
      some (directory (versionRoot root app version)) := by
  rw [directory_versionRoot_of_plain plainRoot plainApp] at inside ⊢
  exact directory?_of_versionRoot_prefix inside

theorem parseVersion_directory (plainRoot : '\\' ∉ root) (plainApp : '\\' ∉ app) :
    parseVersion (appRoot root app) (directory (versionRoot root app version)) =
      some version := by
  rw [directory_versionRoot_of_plain plainRoot plainApp, parseVersion_versionRoot]

end FleetDeploy.Key
