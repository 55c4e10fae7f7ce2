import FleetDeploy.Local.Path
import Mathlib.Data.List.Basic

/-!
# Paths by their parts

A path joined with names has the parts of the path and then the names, whether or not
the path ends with a slash.
-/

namespace FleetDeploy.Path

/-- What an entry of a directory can be called. -/
def IsName (name : List UInt8) : Prop :=
  name ≠ [] ∧ name ≠ [dot] ∧ name ≠ [dot, dot] ∧ slash ∉ name

instance (name : List UInt8) : Decidable (IsName name) :=
  inferInstanceAs (Decidable (_ ∧ _ ∧ _ ∧ _))

/-- The parts of a path.  Nothing stands after a slash at its end. -/
def parts (path : Path) : List (List UInt8) :=
  if path.getLast? = some slash then (split slash path).dropLast else split slash path

variable {mark : UInt8}

/-- Splitting at a mark is the splitting of lists. -/
theorem split_eq_splitOn (text : List UInt8) : split mark text = text.splitOn mark := by
  induction text with
  | nil => rfl
  | cons b rest ih =>
      rw [split, ih, List.splitOn_cons_eq_if_modifyHead]
      simp only [beq_iff_eq]
      split
      · rfl
      · cases parts : rest.splitOn mark with
        | nil => exact absurd parts (List.splitOn_ne_nil mark rest)
        | cons first others => rfl

theorem split_of_notMem {text : List UInt8} (plain : mark ∉ text) : split mark text = [text] := by
  rw [split_eq_splitOn, List.splitOn_eq_singleton plain]

/-- A mark divides the parts before it from those after it. -/
theorem split_append_mark (front rest : List UInt8) :
    split mark (front ++ mark :: rest) = split mark front ++ split mark rest := by
  simp only [split_eq_splitOn, List.splitOn_append_cons_self]

/-- Parts put together with marks are split into the parts of each. -/
theorem split_intercalate {parts : List (List UInt8)} (some : parts ≠ []) :
    split mark ([mark].intercalate parts) = parts.flatMap (split mark) := by
  induction parts with
  | nil => exact absurd rfl some
  | cons first rest ih =>
      cases rest with
      | nil => simp
      | cons next others =>
          rw [List.intercalate_cons_cons, List.append_assoc, List.singleton_append,
            split_append_mark, ih (List.cons_ne_nil _ _)]
          rfl

variable {root : Path} {name : List UInt8}

theorem IsName.not_isAbsolute (legal : IsName name) : isAbsolute name = false := by
  obtain ⟨nonempty, -, -, plain⟩ := legal
  cases name with
  | nil => rfl
  | cons b rest =>
      rw [List.mem_cons, not_or] at plain
      simpa [isAbsolute] using Ne.symm plain.1

theorem join_of_isName (nonempty : root ≠ []) (legal : IsName name) :
    root.join name = if root.getLast? = some slash then root ++ name else root ++ slash :: name := by
  rw [join, if_neg (by simp [legal.not_isAbsolute, nonempty])]

theorem split_join (nonempty : root ≠ []) (legal : IsName name) :
    split slash (root.join name) = root.parts ++ [name] := by
  obtain ⟨-, -, -, plain⟩ := id legal
  rw [join_of_isName nonempty legal, parts]
  by_cases closed : root.getLast? = some slash
  · obtain ⟨front, rfl⟩ := List.getLast?_eq_some_iff.mp closed
    rw [if_pos closed, if_pos closed, List.append_assoc, List.singleton_append, split_append_mark,
      split_append_mark, split_of_notMem plain]
    simp [split]
  · rw [if_neg closed, if_neg closed, split_append_mark, split_of_notMem plain]

theorem join_ne_nil (nonempty : root ≠ []) : root.join name ≠ [] := by
  rw [join]
  split
  next here =>
    rintro rfl
    simp [isAbsolute, nonempty] at here
  next => split <;> simp [nonempty]

theorem parts_join (nonempty : root ≠ []) (legal : IsName name) :
    (root.join name).parts = root.parts ++ [name] := by
  have ends := List.getLast?_eq_some_getLast legal.1
  have last : (root.join name).getLast? = name.getLast? := by
    rw [join_of_isName nonempty legal]
    split <;> simp [List.getLast?_append, List.getLast?_cons, ends]
  have opened : ¬(root.join name).getLast? = some slash := by
    rw [last]
    intro closed
    exact legal.2.2.2 (List.mem_of_getLast? closed)
  rw [parts, if_neg opened, split_join nonempty legal]

/-- A path joined with names has these names behind its own parts. -/
theorem split_foldl_join (nonempty : root ≠ []) {names : List (List UInt8)}
    (legal : ∀ name ∈ names, IsName name) (some : names ≠ []) :
    split slash (names.foldl join root) = root.parts ++ names := by
  induction names generalizing root with
  | nil => exact absurd rfl some
  | cons name names ih =>
      rw [List.forall_mem_cons] at legal
      rw [List.foldl_cons]
      by_cases only : names = []
      · subst only
        exact split_join nonempty legal.1
      · rw [ih (join_ne_nil nonempty) legal.2 only, parts_join nonempty legal.1, List.append_assoc,
          List.singleton_append]

/-- A slash at the end of a path is followed by an empty part. -/
theorem split_eq_parts_or (path : Path) :
    split slash path = path.parts ∨ split slash path = path.parts ++ [[]] := by
  rw [parts]
  by_cases closed : path.getLast? = some slash
  · obtain ⟨front, rfl⟩ := List.getLast?_eq_some_iff.mp closed
    right
    rw [if_pos closed, split_append_mark]
    simp [split]
  · exact .inl (if_neg closed).symm

/-! ## Relative paths -/

/-- The components of names put together with slashes. -/
theorem components_intercalate {names : List (List UInt8)} (legal : ∀ name ∈ names, IsName name) :
    components ([slash].intercalate names) = names.map .normal := by
  cases names with
  | nil => rfl
  | cons name rest =>
      have divided : split slash ([slash].intercalate (name :: rest)) = name :: rest := by
        rw [split_eq_splitOn]
        exact List.splitOn_intercalate slash (fun part member => (legal part member).2.2.2)
          (List.cons_ne_nil _ _)
      have meant : (name :: rest).filterMap component? = (name :: rest).map .normal := by
        rw [← List.filterMap_eq_map]
        apply List.filterMap_congr
        intro part member
        obtain ⟨nonempty, still, up, -⟩ := legal part member
        simp [component?, nonempty, still, up]
      have relative : ([slash].intercalate (name :: rest)).head? ≠ some slash := by
        have named := legal name List.mem_cons_self
        have begun : ([slash].intercalate (name :: rest)).head? = name.head? := by
          obtain ⟨b, tail, rfl⟩ := List.exists_cons_of_ne_nil named.1
          cases rest <;> simp
        rw [begun]
        simpa [isAbsolute] using named.not_isAbsolute
      have still : ¬(name :: rest).head? = some [dot] := by
        simpa using (legal name List.mem_cons_self).2.1
      simp only [components, divided, if_neg relative, if_neg still, meant, List.nil_append]

/-- The names of names put together with slashes. -/
theorem names_intercalate {names : List (List UInt8)} (legal : ∀ name ∈ names, IsName name) :
    Path.names ([slash].intercalate names) = names := by
  rw [Path.names, components_intercalate legal, List.filterMap_map]
  exact List.filterMap_some

end FleetDeploy.Path
