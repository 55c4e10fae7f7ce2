import FleetDeploy.Yaml.Layout
import FleetDeploy.Yaml.Node

/-!
# From tokens to nodes

The grammar of documents, read from tokens by one function for each kind of
collection.  Where a node is left out, an empty scalar stands for it.

A stream holds one document at most; an empty stream is an empty document.
-/

namespace FleetDeploy.Yaml

/-- Tokens that are read in part: the rest, and the anchors so far with their
numbers, each name once. -/
structure Reading where
  tokens : List Token
  anchors : List (List Char × Nat)
  deriving Repr

namespace Reading

/-- Pass over tokens up to a rest. -/
def goTo (tokens : List Token) (reading : Reading) : Reading :=
  { reading with tokens }

/-- The number of the anchor with a name. -/
def number? (name : List Char) (reading : Reading) : Option Nat :=
  (reading.anchors.find? (·.1 = name)).map (·.2)

/-- Give an anchor the number of names that are known so far. -/
def declare (name : List Char) (reading : Reading) : Nat × Reading :=
  let number := reading.anchors.length
  (number, { reading with
    anchors := (name, number) :: reading.anchors.filter fun known => known.1 ≠ name })

end Reading

/-- What stands in front of a node: its anchor and its tag. -/
structure Properties where
  anchor : Option Nat
  tag : Option (List UInt8)
  deriving DecidableEq, Repr

namespace Properties

/-- The tag of a scalar, unless it says that there is none. -/
def scalarTag (properties : Properties) : Option (List UInt8) :=
  properties.tag.filter (· ≠ Tag.unspecific)

/-- The node of which only its properties are written. -/
def nothing? (properties : Properties) : Option Node :=
  if properties.anchor.isSome || properties.tag.isSome then
    some (.scalar properties.anchor properties.tag .plain [])
  else none

/-- Read an anchor and a tag, in either order; both may be missing. -/
def read? (rules : List TagRule) (reading : Reading) : Option (Properties × Reading) :=
  match reading.tokens with
  | .anchor name :: .tag tag :: rest | .tag tag :: .anchor name :: rest => do
    let (number, reading) := (reading.goTo rest).declare name
    return (⟨some number, some (← Tag.resolve? rules tag)⟩, reading)
  | .anchor name :: rest =>
    let (number, reading) := (reading.goTo rest).declare name
    some (⟨some number, none⟩, reading)
  | .tag tag :: rest => do
    return (⟨none, some (← Tag.resolve? rules tag)⟩, reading.goTo rest)
  | _ => some (⟨none, none⟩, reading)

end Properties

namespace Token

/-- Whether a token ends an entry of a block that has no node. -/
def endsBlockNode : Token → Bool
  | .key | .value | .blockEnd => true
  | _ => false

/-- Whether a token ends an item of a sequence between brackets. -/
def endsFlowItem : Token → Bool
  | .flowEntry | .flowSequenceEnd => true
  | _ => false

/-- Whether a token ends an entry of a mapping between brackets. -/
def endsFlowPart : Token → Bool
  | .flowEntry | .flowMappingEnd => true
  | _ => false

end Token

mutual

/-- Read a node.  Only in a block may it be a block collection; `indentless` says
whether it may be a sequence whose entries are not indented. -/
def node? (rules : List TagRule) (block indentless : Bool) :
    Nat → Reading → Option (Node × Reading)
  | 0, _ => none
  | fuel + 1, reading =>
    match reading.tokens with
    | .alias name :: rest => (reading.number? name).map fun n => (.alias n, reading.goTo rest)
    | _ => do
      let (properties, reading) ← Properties.read? rules reading
      match reading.tokens with
      | .scalar style text :: rest =>
        return (.scalar properties.anchor properties.scalarTag style text, reading.goTo rest)
      | .flowSequence :: rest =>
        let (items, reading) ← flowItems? rules true fuel (reading.goTo rest)
        return (.sequence properties.anchor items, reading)
      | .flowMapping :: rest =>
        let (entries, reading) ← flowEntries? rules true fuel (reading.goTo rest)
        return (.mapping properties.anchor entries, reading)
      | token :: rest =>
        if indentless ∧ token = .blockEntry then
          let (items, reading) ← indentlessItems? rules fuel reading
          return (.sequence properties.anchor items, reading)
        else if block ∧ token = .blockSequence then
          let (items, reading) ← blockItems? rules fuel (reading.goTo rest)
          return (.sequence properties.anchor items, reading)
        else if block ∧ token = .blockMapping then
          let (entries, reading) ← blockEntries? rules fuel (reading.goTo rest)
          return (.mapping properties.anchor entries, reading)
        else return (← properties.nothing?, reading)
      | [] => return (← properties.nothing?, reading)

/-- Read a node of a block, or an empty one if a token with a property follows. -/
def blockNode? (rules : List TagRule) (indentless : Bool) (ends : Token → Bool) :
    Nat → Reading → Option (Node × Reading)
  | 0, _ => none
  | fuel + 1, reading =>
    if reading.tokens.head?.any ends then some (.empty, reading)
    else node? rules true indentless fuel reading

/-- Read a node between brackets, or an empty one if a token with a property
follows. -/
def flowNode? (rules : List TagRule) (ends : Token → Bool) :
    Nat → Reading → Option (Node × Reading)
  | 0, _ => none
  | fuel + 1, reading =>
    if reading.tokens.head?.any ends then some (.empty, reading)
    else node? rules false false fuel reading

/-- Read the items of a sequence whose entries are indented. -/
def blockItems? (rules : List TagRule) : Nat → Reading → Option (List Node × Reading)
  | 0, _ => none
  | fuel + 1, reading =>
    match reading.tokens with
    | .blockEntry :: rest => do
      let (item, reading) ← blockNode? rules false (fun t => t = .blockEntry || t = .blockEnd) fuel
        (reading.goTo rest)
      let (items, reading) ← blockItems? rules fuel reading
      return (item :: items, reading)
    | .blockEnd :: rest => some ([], reading.goTo rest)
    | _ => none

/-- Read the items of a sequence whose entries are not indented. -/
def indentlessItems? (rules : List TagRule) : Nat → Reading → Option (List Node × Reading)
  | 0, _ => none
  | fuel + 1, reading =>
    match reading.tokens with
    | .blockEntry :: rest => do
      let (item, reading) ← blockNode? rules false (fun t => t = .blockEntry || t.endsBlockNode)
        fuel (reading.goTo rest)
      let (items, reading) ← indentlessItems? rules fuel reading
      return (item :: items, reading)
    | _ => some ([], reading)

/-- Read the entries of a mapping in a block. -/
def blockEntries? (rules : List TagRule) : Nat → Reading → Option (List (Node × Node) × Reading)
  | 0, _ => none
  | fuel + 1, reading =>
    match reading.tokens with
    | .key :: rest => do
      let (key, reading) ← blockNode? rules true Token.endsBlockNode fuel (reading.goTo rest)
      let (value, reading) ← match reading.tokens with
        | .value :: rest => blockNode? rules true Token.endsBlockNode fuel (reading.goTo rest)
        | _ => some (.empty, reading)
      let (entries, reading) ← blockEntries? rules fuel reading
      return ((key, value) :: entries, reading)
    | .blockEnd :: rest => some ([], reading.goTo rest)
    | _ => none

/-- Read the items of a sequence between brackets, which commas separate.  An item
that is marked as a key is a mapping of one entry; where such a key is empty, the
token behind its mark is passed over. -/
def flowItems? (rules : List TagRule) (first : Bool) :
    Nat → Reading → Option (List Node × Reading)
  | 0, _ => none
  | fuel + 1, reading => do
    if reading.tokens.head? = some .flowSequenceEnd then
      return ([], reading.goTo reading.tokens.tail)
    let reading ←
      if first then some reading
      else if reading.tokens.head? = some .flowEntry then some (reading.goTo reading.tokens.tail)
      else none
    match reading.tokens with
    | .flowSequenceEnd :: rest => return ([], reading.goTo rest)
    | .key :: rest =>
      let ends := fun t => t = Token.value || t.endsFlowItem
      let (key, reading) ← flowNode? rules ends fuel (reading.goTo rest)
      let reading := if rest.head?.any ends then reading.goTo rest.tail else reading
      let (value, reading) ← match reading.tokens with
        | .value :: rest => flowNode? rules Token.endsFlowItem fuel (reading.goTo rest)
        | _ => some (.empty, reading)
      let (items, reading) ← flowItems? rules false fuel reading
      return (.mapping none [(key, value)] :: items, reading)
    | _ =>
      let (item, reading) ← node? rules false false fuel reading
      let (items, reading) ← flowItems? rules false fuel reading
      return (item :: items, reading)

/-- Read the entries of a mapping between brackets, which commas separate.  A node
that is not marked as a key is one without a value. -/
def flowEntries? (rules : List TagRule) (first : Bool) :
    Nat → Reading → Option (List (Node × Node) × Reading)
  | 0, _ => none
  | fuel + 1, reading => do
    if reading.tokens.head? = some .flowMappingEnd then
      return ([], reading.goTo reading.tokens.tail)
    let reading ←
      if first then some reading
      else if reading.tokens.head? = some .flowEntry then some (reading.goTo reading.tokens.tail)
      else none
    match reading.tokens with
    | .flowMappingEnd :: rest => return ([], reading.goTo rest)
    | .key :: rest =>
      let (key, reading) ← flowNode? rules (fun t => t = .value || t.endsFlowPart) fuel
        (reading.goTo rest)
      let (value, reading) ← match reading.tokens with
        | .value :: rest => flowNode? rules Token.endsFlowPart fuel (reading.goTo rest)
        | _ => some (.empty, reading)
      let (entries, reading) ← flowEntries? rules false fuel reading
      return ((key, value) :: entries, reading)
    | _ =>
      let (key, reading) ← node? rules false false fuel reading
      let (entries, reading) ← flowEntries? rules false fuel reading
      return ((key, .empty) :: entries, reading)

end

/-- The rules for handles that directives give.  The version may be said once, and
each handle may have one rule. -/
def tagRules? : List Directive → Option (List TagRule)
  | [] => some Tag.standardRules
  | directives =>
    let handles := directives.filterMap fun
      | .version => none
      | .tag rule => some rule.handle
    let versions := directives.countP (· = .version)
    if versions ≤ 1 ∧ handles.Nodup then
      some ((directives.filterMap fun
        | .version => none
        | .tag rule => some rule) ++ Tag.standardRules)
    else none

/-- The directives at the start of tokens, and what follows them. -/
def leadingDirectives : List Token → List Directive × List Token
  | .directive first :: rest =>
    let (others, rest) := leadingDirectives rest
    (first :: others, rest)
  | tokens => ([], tokens)

/-- Whether a token ends a document that has begun. -/
def Token.endsDocument : Token → Bool
  | .directive _ | .documentStart | .documentEnd => true
  | _ => false

/-- Read the root of a document.  Tokens are read by at most four functions each. -/
def root? (rules : List TagRule) (tokens : List Token) : Option (Node × List Token) :=
  (node? rules true false (4 * tokens.length + 4) ⟨tokens, []⟩).map fun (node, reading) =>
    (node, reading.tokens)

/-- Read the tree of the only document of a stream.  With directives, or with a
marker, its root may be missing. -/
def tree? (tokens : List Token) : Option Node := do
  let (root, rest) ←
    match tokens with
    | [] => some (.empty, [])
    | .directive _ :: _ | .documentStart :: _ =>
      let (directives, tokens) := leadingDirectives tokens
      let rules ← tagRules? directives
      match tokens with
      | .documentStart :: rest =>
        if rest.head?.all Token.endsDocument then some (.empty, rest) else root? rules rest
      | _ => none
    | _ => root? Tag.standardRules tokens
  if (rest.dropWhile (· = .documentEnd)).isEmpty then some root else none

/-- Read the document of a stream. -/
def Document.ofText? (text : List Char) : Option Document := do
  if !text.all isReadable then none
  let tokens ← tokens? (uniformBreaks text)
  return .ofNode (← tree? tokens)

end FleetDeploy.Yaml
