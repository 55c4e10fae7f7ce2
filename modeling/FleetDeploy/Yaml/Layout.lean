import FleetDeploy.Yaml.Scalar.Block
import FleetDeploy.Yaml.Scalar.Plain
import FleetDeploy.Yaml.Scalar.Quoted
import FleetDeploy.Yaml.Token

/-!
# Layout

The layout of a stream is read into tokens.  Two things are not said where they
take effect.  How deep a block is nested is said by the column of its first
word: a greater column opens a block, and a smaller one closes those that began
further to the right.  That something is a key is said by the colon behind it:
every word that could be a key is remembered, and the colon puts a key token in
front of the word that was remembered last.  A key that is remembered stands on
the line of its colon, at most 1024 columns before it.

Between brackets, indentation means nothing, and each pair of brackets remembers
a key of its own.
-/

namespace FleetDeploy.Yaml

/-- A word that may turn out to be a key: where it stands, the number of tokens
in front of it, and whether nothing else than a key could stand there. -/
structure PossibleKey where
  position : Position
  index : Nat
  required : Bool
  deriving DecidableEq, Repr

/-- The greatest number of columns between a key and its colon. -/
def keySpan : Nat :=
  1024

/-- Whether a colon at a place may follow a key. -/
def PossibleKey.reaches (key : PossibleKey) (place : Position) : Bool :=
  key.position.line = place.line && place.column ≤ key.position.column + keySpan

/-- A stream that is read in part: the rest, the tokens so far with the newest
first, the possible keys of the brackets from the innermost one outwards,
whether a key may begin here, and the columns of the open blocks. -/
structure Layout where
  cursor : Cursor
  tokens : List Token
  key : Option PossibleKey
  outer : List (Option PossibleKey)
  keyAllowed : Bool
  blocks : List Nat
  deriving Repr

namespace Layout

/-- The layout of a stream of which nothing was read. -/
def start (chars : List Char) : Layout :=
  ⟨Cursor.start chars, [], none, [], true, []⟩

/-- Whether the reader is between brackets. -/
def flow (layout : Layout) : Bool :=
  !layout.outer.isEmpty

/-- The column that the lines of a block inside the innermost one are indented by
at least. -/
def innerColumn (layout : Layout) : Nat :=
  layout.blocks.head?.elim 0 (· + 1)

/-- Add a token at the end. -/
def emit (token : Token) (layout : Layout) : Layout :=
  { layout with tokens := token :: layout.tokens }

/-- Add tokens behind the first `index` ones. -/
def insertAt (index : Nat) (tokens : List Token) (layout : Layout) : Layout :=
  let later := layout.tokens.length - index
  { layout with
    tokens := layout.tokens.take later ++ tokens.reverse ++ layout.tokens.drop later }

/-- Open a block at a column, unless it lies in an open one that begins there or
further to the right.  The tokens come behind the first `index` ones. -/
def openBlock (column index : Nat) (token : Token) (layout : Layout) : Layout :=
  if !layout.flow && layout.innerColumn ≤ column then
    insertAt index [token] { layout with blocks := column :: layout.blocks }
  else layout

/-- Close the blocks that begin at a column with a property. -/
def closeBlocks (p : Nat → Bool) (layout : Layout) : Layout :=
  if layout.flow then layout
  else
    let closed := layout.blocks.takeWhile p
    { layout with
      tokens := closed.map (fun _ => Token.blockEnd) ++ layout.tokens
      blocks := layout.blocks.dropWhile p }

/-- Forget the possible key.  A required one cannot be forgotten. -/
def forgetKey? (layout : Layout) : Option Layout :=
  if layout.key.any (·.required) then none else some { layout with key := none }

/-- Remember that the next token may be a key, where one may begin. -/
def rememberKey? (layout : Layout) : Option Layout :=
  if layout.keyAllowed then do
    let layout ← layout.forgetKey?
    let place := layout.cursor.position
    let required := !layout.flow && layout.blocks.head? = some place.column
    some { layout with key := some ⟨place, layout.tokens.length, required⟩ }
  else some layout

/-- Pass over a character and add a token for it. -/
def take (token : Token) (keyAllowed : Bool) (layout : Layout) : Layout :=
  emit token { layout with cursor := layout.cursor.skip 1, keyAllowed }

/-- Add a token that was read up to a cursor. -/
def accept (token : Token) (cursor : Cursor) (keyAllowed : Bool) (layout : Layout) : Layout :=
  emit token { layout with cursor, keyAllowed }

/-- Pass over blanks, breaks and comments.  A tab is a blank only where no key
may begin; on a new line of a block, one may.  `comment` holds in comments. -/
def approach (flow keyAllowed comment : Bool) (place : Position) : List Char → Bool × Cursor
  | [] => (keyAllowed, ⟨place, []⟩)
  | c :: rest =>
    if isBreak c then approach flow (keyAllowed || !flow) false (place.after c) rest
    else if comment || c = ' ' || (c = '\t' && (flow || !keyAllowed)) then
      approach flow keyAllowed comment (place.after c) rest
    else if c = '#' then approach flow keyAllowed true (place.after c) rest
    else (keyAllowed, ⟨place, c :: rest⟩)

/-- Go to the next word and close the blocks that it lies outside of. -/
def nextWord (layout : Layout) : Layout :=
  let (keyAllowed, cursor) :=
    approach layout.flow layout.keyAllowed false layout.cursor.position layout.cursor.chars
  closeBlocks (cursor.position.column < ·) { layout with cursor, keyAllowed }

/-- Close all blocks, where a document begins or ends. -/
def closeDocument? (layout : Layout) : Option Layout :=
  (layout.closeBlocks fun _ => true).forgetKey?

/-- Read a directive. -/
def directive? (layout : Layout) : Option Layout := do
  let layout ← layout.closeDocument?
  let (directive, cursor) ← Yaml.directive? (layout.cursor.skip 1)
  return layout.accept (.directive directive) cursor false

/-- Read the marker of a document. -/
def marker? (token : Token) (layout : Layout) : Option Layout := do
  let layout ← layout.closeDocument?
  return layout.accept token (layout.cursor.skip 3) false

/-- Read an opening bracket.  All of what it opens may be a key. -/
def openBracket? (token : Token) (layout : Layout) : Option Layout := do
  let layout ← layout.rememberKey?
  return { layout with key := none, outer := layout.key :: layout.outer }.take token true

/-- Read a closing bracket. -/
def closeBracket? (token : Token) (layout : Layout) : Option Layout := do
  let layout ← layout.forgetKey?
  let layout := match layout.outer with
    | key :: outer => { layout with key, outer }
    | [] => layout
  return layout.take token false

/-- Read a comma between brackets. -/
def flowEntry? (layout : Layout) : Option Layout := do
  let layout ← layout.forgetKey?
  return layout.take .flowEntry true

/-- Read the mark of an entry or of a key, which opens a block of its kind. -/
def blockMark? (block token : Token) (keyAllowed : Bool) (layout : Layout) : Option Layout := do
  if !layout.flow && !layout.keyAllowed then none
  let layout := layout.openBlock layout.cursor.position.column layout.tokens.length block
  let layout ← layout.forgetKey?
  return layout.take token keyAllowed

/-- Read the colon in front of a value.  If there is a key for it, the key is
marked now; otherwise the key is empty. -/
def value? (layout : Layout) : Option Layout :=
  let place := layout.cursor.position
  match layout.key.filter (·.reaches place) with
  | some key =>
    some (((({ layout with key := none }.insertAt key.index [.key]).openBlock
      key.position.column key.index .blockMapping)).take .value false)
  | none =>
    if layout.key.any (·.required) || (!layout.flow && !layout.keyAllowed) then none
    else
      some ((layout.openBlock place.column layout.tokens.length .blockMapping).take .value
        !layout.flow)

/-- Add a word that was read and that may be a key, or a part of one. -/
def word? (read : Option (Token × Cursor)) (layout : Layout) : Option Layout := do
  let layout ← layout.rememberKey?
  let (token, cursor) ← read
  return layout.accept token cursor false

/-- Read a plain scalar.  Where it ends behind a line break, a key may begin. -/
def plain? (layout : Layout) : Option Layout := do
  let layout ← layout.rememberKey?
  let scalar ← Plain.scan? layout.flow layout.innerColumn .empty layout.cursor.position
    layout.cursor.chars
  return layout.accept (.scalar .plain scalar.text) scalar.cursor scalar.endsLine

/-- Read a block scalar, behind which a key may begin. -/
def block? (style : Style) (layout : Layout) : Option Layout := do
  let layout ← layout.forgetKey?
  let (text, cursor) ← Block.scan? (style = .literal) layout.blocks.head? (layout.cursor.skip 1)
  return layout.accept (.scalar style text) cursor true

/-- Read a quoted scalar. -/
def quoted? (style : Style) (cursor : Cursor) : Option (Token × Cursor) :=
  let inside := cursor.skip 1
  let scanned := if style = .single then Quoted.single? .empty inside.position inside.chars
    else Quoted.double? (.text .empty) inside.position inside.chars
  scanned.map fun (text, cursor) => (.scalar style text, cursor)

/-- Read an anchor or an alias, which are a mark and a name. -/
def name? (token : List Char → Token) (cursor : Cursor) : Option (Token × Cursor) :=
  (anchorName? (cursor.skip 1)).map fun (name, cursor) => (token name, cursor)

/-- Read the word that begins with a character and goes on with `rest`. -/
def step? (c : Char) (rest : List Char) (layout : Layout) : Option Layout :=
  let atMargin := layout.cursor.position.column = 0
  if atMargin && c = '%' then layout.directive?
  else if atMargin && isMarkerOf '-' (c :: rest) then layout.marker? .documentStart
  else if atMargin && isMarkerOf '.' (c :: rest) then layout.marker? .documentEnd
  else if c = '[' then layout.openBracket? .flowSequence
  else if c = '\x7b' then layout.openBracket? .flowMapping
  else if c = ']' then layout.closeBracket? .flowSequenceEnd
  else if c = '\x7d' then layout.closeBracket? .flowMappingEnd
  else if c = ',' then layout.flowEntry?
  else if c = '-' && endsWord rest then layout.blockMark? .blockSequence .blockEntry true
  else if c = '?' && (layout.flow || endsWord rest) then
    layout.blockMark? .blockMapping .key !layout.flow
  else if c = ':' && (layout.flow || endsWord rest) then layout.value?
  else if c = '*' then layout.word? (name? .alias layout.cursor)
  else if c = '&' then layout.word? (name? .anchor layout.cursor)
  else if c = '!' then
    layout.word? ((tag? layout.flow layout.cursor).map fun (tag, cursor) => (.tag tag, cursor))
  else if c = '\'' then layout.word? (quoted? .single layout.cursor)
  else if c = '"' then layout.word? (quoted? .double layout.cursor)
  else if c = '|' && !layout.flow then layout.block? .literal
  else if c = '>' && !layout.flow then layout.block? .folded
  else if Plain.starts layout.flow (c :: rest) then layout.plain?
  else none

/-- Read words to the end of the stream, at most as many as `fuel` says. -/
def run? : Nat → Layout → Option (List Token)
  | 0, _ => none
  | fuel + 1, layout =>
    let layout := layout.nextWord
    match layout.cursor.chars with
    | [] => layout.closeDocument?.map (·.tokens.reverse)
    | c :: rest => (layout.step? c rest).bind (run? fuel)

end Layout

/-- The tokens of a stream.  Every word has a character, so there are no more
words than characters. -/
def tokens? (chars : List Char) : Option (List Token) :=
  (Layout.start chars).run? (chars.length + 1)

end FleetDeploy.Yaml
