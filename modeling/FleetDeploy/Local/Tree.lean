import FleetDeploy.Local.Path
import FleetDeploy.Order.Map

/-!
# Local trees

A local tree has files, directories and symbolic links.  A place in it is the
list of names that leads there without links.  `resolve?` follows a path with all
its links to a place, and `walk?` finds the files below a path.

A walk goes into directories that links lead to.  It fails at a link that leads
nowhere, and at one that leads back to a directory that the walk is in.
-/

namespace FleetDeploy

/-- What stands at a place. -/
inductive TreeEntry
  | file (body : List UInt8)
  | directory
  | link (target : Path)
  deriving DecidableEq, Repr

/-- A place: the names that lead to it from the root. -/
abbrev Place :=
  List (List UInt8)

/-- What stands at each place but the root, which is a directory. -/
abbrev Tree :=
  OrderedMap Place TreeEntry

namespace Tree

/-- What stands at a place. -/
def entry? (tree : Tree) (place : Place) : Option TreeEntry :=
  if place = [] then some .directory else tree.get? place

/-- The largest number of links that a path may lead through. -/
def linkLimit : Nat :=
  40

/-- Follow the parts of a path from a place, with a number of links at most.
Every part but the last has to lead to a directory. -/
def follow? (tree : Tree) (links : Nat) (place : Place) : List Path → Option Place
  | [] => (tree.entry? place).map fun _ => place
  | part :: rest =>
    if tree.entry? place ≠ some .directory then none
    else if part = [] ∨ part = [Path.dot] then follow? tree links place rest
    else if part = [Path.dot, Path.dot] then follow? tree links place.dropLast rest
    else
      match tree.entry? (place ++ [part]), links with
      | some (.link _), 0 => none
      | some (.link target), links + 1 =>
        let start := if target.isAbsolute then [] else place
        follow? tree links start (Path.split Path.slash target ++ rest)
      | _, links => follow? tree links (place ++ [part]) rest
termination_by parts => (links, parts.length)

/-- The place that a path leads to, if something stands there. -/
def resolve? (tree : Tree) (path : Path) : Option Place :=
  if path = [] then none else tree.follow? linkLimit [] (Path.split Path.slash path)

/-- What a path leads to. -/
def at? (tree : Tree) (path : Path) : Option TreeEntry := do
  tree.entry? (← tree.resolve? path)

/-- The content of the file that a path leads to. -/
def read? (tree : Tree) (path : Path) : Option (List UInt8) :=
  match tree.at? path with
  | some (.file body) => some body
  | _ => none

/-- The names of a directory, in ascending order. -/
def names (tree : Tree) (place : Place) : List (List UInt8) :=
  tree.keys.filterMap fun other =>
    if other.dropLast = place then other.getLast? else none

/-- Join the results for a list of names, each of which may fail. -/
def gather {α : Type} (visit : List UInt8 → Option (List α)) :
    List (List UInt8) → Option (List α)
  | [] => some []
  | name :: rest => do
    let first ← visit name
    let others ← gather visit rest
    return first ++ others

/-- The files below a directory, as paths relative to where the walk began.
`inside` holds the directories that the walk is in, and `relative` the names from
its beginning.  The depth is limited. -/
def walkFrom? (tree : Tree) : Nat → List Place → Place → Place → Option (List Place)
  | 0, _, _, _ => none
  | depth + 1, inside, place, relative =>
    gather (fun name =>
      let child := place ++ [name]
      let named := relative ++ [name]
      match tree.entry? child with
      | some (.file _) => some [named]
      | some .directory => walkFrom? tree depth (place :: inside) child named
      | some (.link target) =>
        match tree.follow? (linkLimit - 1) (if target.isAbsolute then [] else place)
            (Path.split Path.slash target) with
        | none => none
        | some goal =>
          match tree.entry? goal with
          | some .directory =>
            if goal ∈ place :: inside then none
            else walkFrom? tree depth (place :: inside) goal named
          | _ => some [named]
      | none => some []) (tree.names place)

/-- How deep a walk can be: a directory that is entered by its name is new
between any two links, and a link leads to another directory each time. -/
def depthLimit (tree : Tree) : Nat :=
  (tree.entries.length + 2) * (tree.entries.length + 2)

/-- The files that a path leads to, as the names that follow it.  A path to a
file leads to that file alone. -/
def walk? (tree : Tree) (path : Path) : Option (List Place) := do
  let place ← tree.resolve? path
  match tree.entry? place with
  | some .directory => walkFrom? tree tree.depthLimit [] place []
  | _ => return [[]]

/-- Put an entry at the end of a list of names, with the directories on the way.
Names that lead through a file lead nowhere. -/
def put (tree : Tree) (entry : TreeEntry) (place : Place) : Place → Tree
  | [] => tree
  | [name] => tree.insert (place ++ [name]) entry
  | name :: rest =>
    match tree.entry? (place ++ [name]) with
    | none => put (tree.insert (place ++ [name]) .directory) entry (place ++ [name]) rest
    | some (.file _) => tree
    | some .directory => put tree entry (place ++ [name]) rest
    | some (.link target) =>
      match tree.follow? (linkLimit - 1) (if target.isAbsolute then [] else place)
          (Path.split Path.slash target) with
      | some goal => put tree entry goal rest
      | none => tree

/-- Put an entry at a path. -/
def add (tree : Tree) (path : Path) (entry : TreeEntry) : Tree :=
  tree.put entry [] path.names

/-- Remove what stands at a path, if the path leads to a file. -/
def removeFile (tree : Tree) (path : Path) : Tree :=
  match tree.at? path with
  | some (.file _) => tree.filterKeys (· ≠ path.names)
  | _ => tree

/-- Put a directory at a path, in the place of a file. -/
def makeDirectory (tree : Tree) (path : Path) : Tree :=
  (tree.removeFile path).add path .directory

end Tree

end FleetDeploy
