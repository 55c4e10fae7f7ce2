import FleetDeploy.Text.Utf8

/-!
# Local paths

A local path is a byte string divided by slashes; its parts need not be text.
Empty parts and single dots carry no meaning, except for a dot that leads.
-/

namespace FleetDeploy

/-- A path in a local tree. -/
abbrev Path :=
  List UInt8

namespace Path

/-- A part of a path. -/
inductive Component
  | root
  | current
  | parent
  | normal (name : List UInt8)
  deriving DecidableEq, Repr

/-- The byte that divides the parts. -/
def slash : UInt8 :=
  0x2F

/-- The byte that divides a name from its extension. -/
def dot : UInt8 :=
  0x2E

/-- Split a byte string at each occurrence of a byte. -/
def split (mark : UInt8) : List UInt8 → List (List UInt8)
  | [] => [[]]
  | b :: rest =>
    if b = mark then [] :: split mark rest
    else
      match split mark rest with
      | [] => [[b]]
      | first :: others => (b :: first) :: others

/-- The meaning of a part that is not the first, if it has one. -/
def component? (part : List UInt8) : Option Component :=
  if part = [] ∨ part = [dot] then none
  else if part = [dot, dot] then some .parent
  else some (.normal part)

/-- The components of a path. -/
def components (path : Path) : List Component :=
  let parts := split slash path
  let leading : List Component :=
    if path.head? = some slash then [.root]
    else if parts.head? = some [dot] then [.current]
    else []
  leading ++ parts.filterMap component?

/-- The names among the components of a path. -/
def names (path : Path) : List (List UInt8) :=
  path.components.filterMap fun
    | .normal name => some name
    | _ => none

/-- Whether a path starts at the root. -/
def isAbsolute (path : Path) : Bool :=
  path.head? = some slash

/-- The path of `rest` seen from `base`.  An absolute path stands for itself. -/
def join (base rest : Path) : Path :=
  if rest.isAbsolute || base.isEmpty then rest
  else if base.getLast? = some slash then base ++ rest
  else base ++ slash :: rest

/-- The name that a path ends in, unless it ends in a step up or is empty. -/
def fileName? (path : Path) : Option (List UInt8) :=
  match path.components.getLast? with
  | some (.normal name) => some name
  | _ => none

/-- The extension of a path: what follows the last dot of its name, where
something stands in front of that dot. -/
def extension? (path : Path) : Option (List UInt8) := do
  let parts := split dot (← path.fileName?)
  if parts.length < 2 ∨ parts.dropLast = [[]] then none else parts.getLast?

/-- The path of a text. -/
def ofString (text : String) : Path :=
  Text.Utf8.encode text.toList

/-- The text of a path, with U+FFFD for parts that are no text. -/
def display (path : Path) : String :=
  String.ofList (Text.Utf8.decodeLenient path)

end Path

end FleetDeploy
