import FleetDeploy.Proofs.Local.Leads
import FleetDeploy.Proofs.Order.Map

/-!
# What a walk finds

A walk that succeeds finds every file below the directory where it began, and each of
them once: the names of a directory are all different, and what is found under one of
them begins with it.  A file is what can be read under the directory's path and some
names behind it.
-/

namespace FleetDeploy

/-- A file below a directory: the names that lead to it, and what it holds. -/
structure TreeFile where
  names : Place
  body : List UInt8
  deriving DecidableEq, Repr

namespace Tree

open FleetDeploy.Path (IsName dot slash split)

/-- Everything in the tree is called by a name. -/
def IsLegal (tree : Tree) : Prop :=
  ∀ place ∈ tree.keys, ∀ name ∈ place, IsName name

variable {tree : Tree} {place goal relative : Place} {name : List UInt8} {depth : Nat}
  {found : List Place}

theorem entry?_child : tree.entry? (place ++ [name]) = tree.get? (place ++ [name]) :=
  if_neg (by simp)

theorem IsLegal.isName (legal : tree.IsLegal)
    (present : tree.entry? (place ++ [name]) ≠ none) : IsName name := by
  rw [entry?_child, OrderedMap.get?_ne_none_iff] at present
  exact legal _ present name (by simp)

/-- Behind a path, the names of a file lead to what it holds. -/
structure HasFile (tree : Tree) (root : Path) (file : TreeFile) : Prop where
  below : file.names ≠ []
  legal : ∀ name ∈ file.names, IsName name
  holds : tree.read? (file.names.foldl Path.join root) = some file.body

/-- All files below a path, each of them once. -/
structure Lists (tree : Tree) (root : Path) (files : List TreeFile) : Prop where
  once : (files.map (·.names)).Nodup
  mem_iff : ∀ file, file ∈ files ↔ tree.HasFile root file

/-! ## The names of a directory -/

theorem mem_names_iff : name ∈ tree.names place ↔ tree.entry? (place ++ [name]) ≠ none := by
  rw [entry?_child, OrderedMap.get?_ne_none_iff, names, List.mem_filterMap]
  constructor
  · rintro ⟨other, member, last⟩
    split at last
    next same =>
      rwa [← same, List.dropLast_append_getLast? _ last]
    next => cases last
  · intro member
    exact ⟨_, member, by simp⟩

theorem nodup_names : (tree.names place).Nodup := by
  refine (OrderedMap.nodup_keys tree).filterMap ?_
  intro first second name one two
  have last {other : Place}
      (named : name ∈ if other.dropLast = place then other.getLast? else none) :
      other = place ++ [name] := by
    split at named
    next same => rw [← same, List.dropLast_append_getLast? _ named]
    next => cases named
  exact (last one).trans (last two).symm

/-! ## One directory -/

/-- What visiting an entry of a directory can find: the entry itself, if it leads to no
directory, and else what a walk finds in the directory. -/
inductive Visited (tree : Tree) (depth : Nat) (place relative : Place) (name : List UInt8) :
    List Place → Prop
  | leaf {goal : Place} (leads : tree.Leads place [name] goal)
      (plain : tree.entry? goal ≠ some .directory) :
      Visited tree depth place relative name [relative ++ [name]]
  | inner {goal : Place} {inside : List Place} {found : List Place}
      (leads : tree.Leads place [name] goal) (directory : tree.entry? goal = some .directory)
      (walked : tree.walkFrom? depth inside goal (relative ++ [name]) = some found) :
      Visited tree depth place relative name found

/-- The name of a child that is no link leads to the child. -/
theorem leads_child (directory : tree.entry? place = some .directory) (named : IsName name)
    (present : tree.entry? (place ++ [name]) ≠ none)
    (plain : ∀ target, tree.entry? (place ++ [name]) ≠ some (.link target)) :
    tree.Leads place [name] (place ++ [name]) :=
  .down directory ⟨named.1, named.2.1, named.2.2.1⟩ plain (.here present)

/-- The name of a link leads to where the link leads. -/
theorem leads_link {target : Path} {links : Nat}
    (directory : tree.entry? place = some .directory) (named : IsName name)
    (child : tree.entry? (place ++ [name]) = some (.link target))
    (followed : tree.follow? links (linkStart place target) (split slash target) = some goal) :
    tree.Leads place [name] goal := by
  refine .link directory ⟨named.1, named.2.1, named.2.2.1⟩ child ?_
  rw [List.append_nil]
  exact leads_of_follow? followed

theorem gather_eq_some {α : Type} {visit : List UInt8 → Option (List α)}
    {names : List (List UInt8)} {result : List α} (gathered : gather visit names = some result) :
    result = names.flatMap (fun name => (visit name).getD []) ∧
      ∀ name ∈ names, visit name ≠ none := by
  induction names generalizing result with
  | nil =>
      cases gathered
      exact ⟨rfl, nofun⟩
  | cons name names ih =>
      rw [gather] at gathered
      obtain ⟨first, here, rest⟩ := Option.bind_eq_some_iff.mp gathered
      obtain ⟨others, later, equal⟩ := Option.bind_eq_some_iff.mp rest
      cases equal
      obtain ⟨rfl, all⟩ := ih later
      rw [List.forall_mem_cons]
      exact ⟨by simp [here], by simp [here], all⟩

/-- A walk visits each entry of its directory. -/
theorem exists_visits {inside : List Place} (legal : tree.IsLegal)
    (directory : tree.entry? place = some .directory)
    (walked : tree.walkFrom? (depth + 1) inside place relative = some found) :
    ∃ visits : List UInt8 → List Place, found = (tree.names place).flatMap visits ∧
      ∀ name ∈ tree.names place, Visited tree depth place relative name (visits name) := by
  rw [walkFrom?] at walked
  obtain ⟨rfl, all⟩ := gather_eq_some walked
  refine ⟨_, rfl, fun name member => ?_⟩
  have visited := all name member
  have present := mem_names_iff.mp member
  have named := legal.isName present
  have step := leads_child directory named present
  simp only at visited ⊢
  cases child : tree.entry? (place ++ [name]) with
  | none => exact absurd child present
  | some entry =>
      simp only [child] at visited step ⊢
      cases entry with
      | file body => exact .leaf (step nofun) (by simp [child])
      | directory =>
          obtain ⟨found, walked⟩ := Option.ne_none_iff_exists'.mp visited
          rw [walked]
          exact .inner (step nofun) child walked
      | link target =>
          cases followed : tree.follow? (linkLimit - 1) (if target.isAbsolute then [] else place)
              (split slash target) with
          | none => simp [followed] at visited
          | some goal =>
              have leads := leads_link directory named child followed
              simp only [followed] at visited ⊢
              by_cases inner : tree.entry? goal = some .directory
              · simp only [inner] at visited ⊢
                split at visited
                next => exact absurd rfl visited
                next new =>
                  obtain ⟨found, walked⟩ := Option.ne_none_iff_exists'.mp visited
                  rw [if_neg new, walked]
                  exact .inner leads inner walked
              · split
                next => contradiction
                next => exact .leaf leads inner

/-- What is found at an entry begins with the names that lead there. -/
theorem Visited.exists_rest
    (visited : Visited tree depth place relative name found)
    (later : ∀ {inside : List Place} {goal : Place} {found : List Place},
      tree.entry? goal = some .directory →
      tree.walkFrom? depth inside goal (relative ++ [name]) = some found →
      ∀ names ∈ found, ∃ rest, rest ≠ [] ∧ (∀ n ∈ rest, IsName n) ∧
        names = relative ++ [name] ++ rest) :
    ∀ names ∈ found, ∃ rest, (∀ n ∈ rest, IsName n) ∧ names = relative ++ [name] ++ rest := by
  intro names member
  cases visited with
  | leaf =>
      rw [List.mem_singleton.mp member]
      exact ⟨[], nofun, (List.append_nil _).symm⟩
  | inner leads directory walked =>
      obtain ⟨rest, -, isName, equal⟩ := later directory walked names member
      exact ⟨rest, isName, equal⟩

/-! ## Whole walks -/

/-- Only names below the directory are found, one at least. -/
theorem exists_rest_of_walkFrom? (legal : tree.IsLegal) {inside : List Place}
    (directory : tree.entry? place = some .directory)
    (walked : tree.walkFrom? depth inside place relative = some found) :
    ∀ names ∈ found, ∃ rest, rest ≠ [] ∧ (∀ n ∈ rest, IsName n) ∧ names = relative ++ rest := by
  induction depth generalizing inside place relative found with
  | zero => cases walked
  | succ depth ih =>
      obtain ⟨visits, rfl, all⟩ := exists_visits legal directory walked
      intro names member
      obtain ⟨name, here, member⟩ := List.mem_flatMap.mp member
      have named := legal.isName (mem_names_iff.mp here)
      obtain ⟨rest, isName, rfl⟩ := (all name here).exists_rest ih names member
      refine ⟨name :: rest, List.cons_ne_nil _ _, List.forall_mem_cons.mpr ⟨named, isName⟩, ?_⟩
      rw [List.append_assoc, List.singleton_append]

/-- Every file below the directory is found. -/
theorem mem_of_walkFrom? (legal : tree.IsLegal) {inside : List Place}
    (directory : tree.entry? place = some .directory)
    (walked : tree.walkFrom? depth inside place relative = some found) {rest : Place}
    {body : List UInt8} (below : rest ≠ []) (isName : ∀ n ∈ rest, IsName n)
    (leads : tree.Leads place rest goal) (file : tree.entry? goal = some (.file body)) :
    relative ++ rest ∈ found := by
  induction depth generalizing inside place relative found rest with
  | zero => cases walked
  | succ depth ih =>
      obtain ⟨visits, rfl, all⟩ := exists_visits legal directory walked
      cases rest with
      | nil => exact absurd rfl below
      | cons name rest =>
          rw [List.forall_mem_cons] at isName
          rw [← List.singleton_append] at leads
          obtain ⟨middle, first, onward⟩ := leads_append_iff.mp leads
          have here : name ∈ tree.names place :=
            mem_names_iff.mpr (first.child_present isName.1)
          refine List.mem_flatMap.mpr ⟨name, here, ?_⟩
          have visited := all name here
          generalize visits name = found at visited ⊢
          -- The entry leads to a file where the names end, and to a directory before.
          cases rest with
          | nil =>
              cases onward
              cases visited with
              | leaf => exact List.mem_singleton_self _
              | inner again directory =>
                  rw [first.eq again, file] at directory
                  cases directory
          | cons next rest =>
              cases visited with
              | leaf again plain =>
                  rw [first.eq again] at plain
                  exact absurd onward.directory plain
              | inner again directory walked =>
                  rw [first.eq again] at directory walked
                  have found := ih directory walked (List.cons_ne_nil _ _) isName.2 onward
                  rwa [List.append_assoc, List.singleton_append] at found

/-- No file is found twice. -/
theorem nodup_walkFrom? (legal : tree.IsLegal) {inside : List Place}
    (directory : tree.entry? place = some .directory)
    (walked : tree.walkFrom? depth inside place relative = some found) : found.Nodup := by
  induction depth generalizing inside place relative found with
  | zero => cases walked
  | succ depth ih =>
      obtain ⟨visits, rfl, all⟩ := exists_visits legal directory walked
      rw [List.nodup_flatMap]
      constructor
      · intro name here
        have visited := all name here
        generalize visits name = found at visited ⊢
        cases visited with
        | leaf => exact List.nodup_singleton _
        | inner leads directory walked => exact ih directory walked
      · refine nodup_names.imp_of_mem ?_
        intro first second firstHere secondHere apart names one two
        have begins {name : List UInt8} (here : name ∈ tree.names place)
            (member : names ∈ visits name) : ∃ rest, names = relative ++ [name] ++ rest := by
          obtain ⟨rest, -, equal⟩ :=
            (all name here).exists_rest (exists_rest_of_walkFrom? legal) names member
          exact ⟨rest, equal⟩
        obtain ⟨rest, rfl⟩ := begins firstHere one
        obtain ⟨other, same⟩ := begins secondHere two
        simp only [List.append_assoc, List.singleton_append, List.append_cancel_left_eq,
          List.cons.injEq] at same
        exact apart same.1

/-- What a path resolves to is where its parts lead. -/
theorem leads_of_resolve? {path : Path} (resolved : tree.resolve? path = some place) :
    path ≠ [] ∧ tree.Leads [] (split slash path) place := by
  rw [resolve?] at resolved
  split at resolved
  next => cases resolved
  next nonempty => exact ⟨nonempty, leads_of_follow? resolved⟩

/-- A slash at the end of a path leads no further. -/
theorem leads_parts_of_resolve? {path : Path} (resolved : tree.resolve? path = some place) :
    tree.Leads [] path.parts place := by
  obtain ⟨-, leads⟩ := leads_of_resolve? resolved
  rcases path.split_eq_parts_or with plain | closed
  · rwa [plain] at leads
  · rw [closed] at leads
    obtain ⟨middle, leads, onward⟩ := leads_append_iff.mp leads
    cases onward with
    | stay _ _ next =>
        cases next
        exact leads
    | link _ named | down _ named => exact absurd rfl named.1

theorem read?_eq_some {path : Path} {body : List UInt8} (read : tree.read? path = some body) :
    ∃ goal, tree.resolve? path = some goal ∧ tree.entry? goal = some (.file body) := by
  rw [read?] at read
  split at read
  next found =>
    cases read
    exact Option.bind_eq_some_iff.mp found
  next => cases read

/-- A walk of a directory finds the files below it, each of them once. -/
theorem walk?_finds {root : Path} (legal : tree.IsLegal)
    (directory : tree.at? root = some .directory) (walked : tree.walk? root = some found) :
    found.Nodup ∧ (∀ names ∈ found, names ≠ [] ∧ ∀ name ∈ names, IsName name) ∧
      ∀ file, tree.HasFile root file → file.names ∈ found := by
  obtain ⟨place, resolved, stands⟩ := Option.bind_eq_some_iff.mp directory
  have walking : tree.walkFrom? tree.depthLimit [] place [] = some found := by
    simpa only [walk?, resolved, Option.bind_eq_bind, Option.bind_some, stands] using walked
  refine ⟨nodup_walkFrom? legal stands walking, ?_, ?_⟩
  · intro names member
    obtain ⟨rest, below, isName, rfl⟩ := exists_rest_of_walkFrom? legal stands walking _ member
    exact ⟨below, isName⟩
  · rintro file ⟨below, isName, holds⟩
    obtain ⟨goal, reached, regular⟩ := read?_eq_some holds
    obtain ⟨nonempty, -⟩ := leads_of_resolve? resolved
    obtain ⟨-, leads⟩ := leads_of_resolve? reached
    rw [Path.split_foldl_join nonempty isName below] at leads
    obtain ⟨middle, first, onward⟩ := leads_append_iff.mp leads
    rw [(leads_parts_of_resolve? resolved).eq first] at onward
    exact mem_of_walkFrom? legal stands walking below isName onward regular

/-- Where all that a walk found can be read, it found the files below its root. -/
theorem lists_of_walk? {root : Path} {files : List TreeFile} (legal : tree.IsLegal)
    (directory : tree.at? root = some .directory)
    (walked : tree.walk? root = some (files.map (·.names)))
    (read : ∀ file ∈ files, tree.read? (file.names.foldl Path.join root) = some file.body) :
    tree.Lists root files := by
  obtain ⟨once, below, all⟩ := walk?_finds legal directory walked
  refine ⟨once, fun file => ⟨fun member => ?_, fun has => ?_⟩⟩
  · obtain ⟨nonempty, isName⟩ := below file.names (List.mem_map_of_mem member)
    exact ⟨nonempty, isName, read file member⟩
  · obtain ⟨other, member, same⟩ := List.mem_map.mp (all file has)
    have body : some other.body = some file.body := by
      rw [← read other member, same, has.holds]
    cases file
    cases other
    cases same
    cases body
    exact member

/-- The files of a path: those below it, or the file that it leads to itself. -/
inductive FilesAt (tree : Tree) (root : Path) : List TreeFile → Prop
  | below {files : List TreeFile} (directory : tree.at? root = some .directory)
      (lists : tree.Lists root files) : FilesAt tree root files
  | alone {body : List UInt8} (read : tree.read? root = some body) : FilesAt tree root [⟨[], body⟩]

/-- A walk finds only its root if that leads to no directory. -/
theorem eq_of_walk? {root : Path} (plain : tree.at? root ≠ some .directory)
    (walked : tree.walk? root = some found) : found = [[]] := by
  obtain ⟨place, resolved, walking⟩ := Option.bind_eq_some_iff.mp walked
  split at walking
  next stands =>
    refine absurd ?_ plain
    rw [at?, resolved, Option.bind_eq_bind, Option.bind_some, stands]
  next => exact (Option.some.inj walking).symm

theorem at?_ne_of_read? {root : Path} {body : List UInt8} (read : tree.read? root = some body) :
    tree.at? root ≠ some .directory := by
  intro directory
  rw [read?, directory] at read
  cases read

/-- Where all that a walk found can be read, it found the files of its root. -/
theorem filesAt_of_walk? {root : Path} {files : List TreeFile} (legal : tree.IsLegal)
    (walked : tree.walk? root = some (files.map (·.names)))
    (read : ∀ file ∈ files, tree.read? (file.names.foldl Path.join root) = some file.body) :
    tree.FilesAt root files := by
  by_cases directory : tree.at? root = some .directory
  · exact .below directory (lists_of_walk? legal directory walked read)
  · have found : files.map (·.names) = [[]] := eq_of_walk? directory walked
    obtain ⟨file, rfl, nameless⟩ := List.map_eq_singleton_iff.mp found
    obtain ⟨names, body⟩ := file
    cases nameless
    exact .alone (read _ (List.mem_singleton_self _))

/-! ## A small tree -/

/-- A directory with one file in it. -/
def single : Tree :=
  ⟨[([[0x72]], .directory), ([[0x72], [0x61]], .file [0x7B])], by decide⟩

theorem isLegal_single : single.IsLegal := by
  unfold IsLegal
  decide

theorem resolve?_single : single.resolve? [0x72] = some [[0x72]] := by
  simp [resolve?, follow?, Path.split, slash, dot, entry?, single, OrderedMap.get?]

theorem at?_single : single.at? [0x72] = some .directory := by
  rw [at?, resolve?_single]
  rfl

theorem walk?_single : single.walk? [0x72] = some [[[0x61]]] := by
  rw [walk?, resolve?_single]
  decide

theorem read?_single : single.read? (Path.join [0x72] [0x61]) = some [0x7B] := by
  change single.read? [0x72, 0x2F, 0x61] = some [0x7B]
  simp [read?, at?, resolve?, follow?, Path.split, slash, dot, entry?, single, OrderedMap.get?,
    linkLimit]

end Tree

end FleetDeploy
