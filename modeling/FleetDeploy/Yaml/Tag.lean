import FleetDeploy.Yaml.Cursor

/-!
# Anchors, tags and directives

The words of a stream that name things.  A tag is written as a handle and a
rest; the handle stands for the first part of the tag, by rules that the
document may extend with directives.  Tags are compared as bytes, since escapes
may spell bytes that are no text.
-/

namespace FleetDeploy.Yaml

/-- A tag as it is written.  Where the handle is empty, the rest is all of it. -/
structure WrittenTag where
  handle : List Char
  rest : List UInt8
  deriving DecidableEq, Repr

/-- What a handle stands for. -/
structure TagRule where
  handle : List Char
  base : List UInt8
  deriving DecidableEq, Repr

/-- The bytes of a word that holds ASCII characters only. -/
def asciiBytes (word : List Char) : List UInt8 :=
  word.map fun c => UInt8.ofNat c.toNat

namespace Tag

/-- The tag of nothing. -/
def null : List UInt8 :=
  asciiBytes "tag:yaml.org,2002:null".toList

/-- The tag of whole numbers. -/
def integer : List UInt8 :=
  asciiBytes "tag:yaml.org,2002:int".toList

/-- The tag that says that there is none. -/
def unspecific : List UInt8 :=
  asciiBytes ['!']

/-- The rules that hold in every document, unless it changes them. -/
def standardRules : List TagRule :=
  [⟨['!'], asciiBytes ['!']⟩, ⟨['!', '!'], asciiBytes "tag:yaml.org,2002:".toList⟩]

/-- The bytes of a written tag, if there is a rule for its handle. -/
def resolve? (rules : List TagRule) (tag : WrittenTag) : Option (List UInt8) :=
  if tag.handle.isEmpty then some tag.rest
  else (rules.find? (·.handle = tag.handle)).map (·.base ++ tag.rest)

end Tag

/-- The characters of a tag; some of them have to be escaped unless the tag is
written in full. -/
def isTagChar (full : Bool) (c : Char) : Bool :=
  isNameChar c || c ∈ ";/?:@&=+$.!~*'()".toList || (full && c ∈ [',', '[', ']'])

/-- The number of bytes that follow the first byte of an escaped character. -/
def escapedLength? (b : UInt8) : Option Nat :=
  if b < 0x80 then some 0
  else if 0xC0 ≤ b ∧ b < 0xE0 then some 1
  else if 0xE0 ≤ b ∧ b < 0xF0 then some 2
  else if 0xF0 ≤ b ∧ b < 0xF8 then some 3
  else none

/-- Read the characters of a tag.  `left` bytes of an escaped character are still
to come. -/
def tagChars? (full : Bool) (left : Nat) (place : Position) :
    List Char → Option (List UInt8 × Cursor)
  | [] => if left = 0 then some ([], ⟨place, []⟩) else none
  | '%' :: a :: b :: rest => do
    let byte := UInt8.ofNat ((← hexDigit? a) * 16 + (← hexDigit? b))
    let left ←
      if left = 0 then escapedLength? byte
      else if 0x80 ≤ byte ∧ byte < 0xC0 then some (left - 1) else none
    let (bytes, cursor) ← tagChars? full left (((place.after '%').after a).after b) rest
    return (byte :: bytes, cursor)
  | c :: rest =>
    if left ≠ 0 ∨ c = '%' then none
    else if isTagChar full c then
      (tagChars? full 0 (place.after c) rest).map fun (bytes, cursor) =>
        (UInt8.ofNat c.toNat :: bytes, cursor)
    else some ([], ⟨place, c :: rest⟩)

/-- Read the characters of a tag, of which there has to be one. -/
def someTagChars? (full : Bool) (cursor : Cursor) : Option (List UInt8 × Cursor) := do
  let (bytes, cursor) ← tagChars? full 0 cursor.position cursor.chars
  if bytes.isEmpty then none else some (bytes, cursor)

/-- Read a handle: an exclamation mark, a name that may be empty, and perhaps
another mark. -/
def handle? (cursor : Cursor) : Option (List Char × Cursor) := do
  let cursor ← cursor.expect? '!'
  let (name, cursor) := cursor.takeWhile isNameChar
  match cursor.expect? '!' with
  | some next => some ('!' :: name ++ ['!'], next)
  | none => some ('!' :: name, cursor)

/-- Read a tag, which a blank or a break has to follow; between brackets a comma
may follow as well.  A handle that is not closed is part of the rest. -/
def tag? (flow : Bool) (cursor : Cursor) : Option (WrittenTag × Cursor) := do
  let (tag, cursor) ←
    if (cursor.skip 1).chars.head? = some '<' then do
      let (bytes, next) ← someTagChars? true (cursor.skip 2)
      some (⟨[], bytes⟩, ← next.expect? '>')
    else do
      let (handle, next) ← handle? cursor
      if 1 < handle.length ∧ handle.getLast? = some '!' then
        let (bytes, next) ← someTagChars? false next
        some (⟨handle, bytes⟩, next)
      else
        let (bytes, next) ← tagChars? false 0 next.position next.chars
        let rest := asciiBytes (handle.drop 1) ++ bytes
        some (if rest.isEmpty then ⟨[], Tag.unspecific⟩ else ⟨['!'], rest⟩, next)
  if cursor.endsWord || (flow && cursor.chars.head? = some ',') then some (tag, cursor) else none

/-- Read the name of an anchor or of an alias, from behind its mark. -/
def anchorName? (cursor : Cursor) : Option (List Char × Cursor) :=
  let (name, cursor) := cursor.takeWhile isNameChar
  if name.isEmpty then none
  else if cursor.endsWord || cursor.chars.head?.any (· ∈ "?:,]\x7d%@\x60".toList) then
    some (name, cursor)
  else none

/-- A directive: the version of the format, or a rule for a handle. -/
inductive Directive
  | version
  | tag (rule : TagRule)
  deriving DecidableEq, Repr

/-- Read a number of at most nine digits. -/
def versionPart? (cursor : Cursor) : Option (Nat × Cursor) :=
  let (digits, cursor) := cursor.takeWhile fun c => (digit? c).isSome
  if digits.isEmpty ∨ 9 < digits.length then none
  else some (digits.foldl (fun n c => n * 10 + (digit? c).getD 0) 0, cursor)

/-- Read the version of the format, which is 1.1 or 1.2. -/
def version? (cursor : Cursor) : Option (Directive × Cursor) := do
  let (major, cursor) ← versionPart? cursor
  let cursor ← cursor.expect? '.'
  let (minor, cursor) ← versionPart? cursor
  if major = 1 ∧ (minor = 1 ∨ minor = 2) then some (.version, cursor) else none

/-- Read a rule for a handle, which is closed unless it is a single mark. -/
def tagRule? (cursor : Cursor) : Option (Directive × Cursor) := do
  let (handle, cursor) ← handle? cursor
  if 1 < handle.length ∧ handle.getLast? ≠ some '!' then none
  if !(cursor.chars.head?.any isBlank) then none
  let (base, cursor) ← someTagChars? true (cursor.skipWhile isBlank)
  if cursor.endsWord then some (.tag ⟨handle, base⟩, cursor) else none

/-- Read a directive, from behind its mark to the end of its line. -/
def directive? (cursor : Cursor) : Option (Directive × Cursor) := do
  let (name, cursor) := cursor.takeWhile isNameChar
  if !cursor.endsWord then none
  let cursor := cursor.skipWhile isBlank
  let (directive, cursor) ←
    if name = "YAML".toList then version? cursor
    else if name = "TAG".toList then tagRule? cursor
    else none
  some (directive, ← cursor.skipLineEnd?)

end FleetDeploy.Yaml
