import FleetDeploy.Json.Value

/-!
# Writing JSON

A value is written without spaces, its fields in the order they have.  A string
escapes the quote, the backslash and the control characters below the space and
nothing else, so all other text stands as it is.
-/

namespace FleetDeploy.Json

/-- The hexadecimal digit of a number below sixteen, in lower case. -/
def hexDigit (n : Nat) : Char :=
  if n < 10 then Char.ofNat (0x30 + n) else Char.ofNat (0x57 + n)

/-- One character inside a string. -/
def escapeChar (c : Char) : List Char :=
  if c = '"' then ['\\', '"']
  else if c = '\\' then ['\\', '\\']
  else if c = '\x08' then ['\\', 'b']
  else if c = '\x0c' then ['\\', 'f']
  else if c = '\n' then ['\\', 'n']
  else if c = '\r' then ['\\', 'r']
  else if c = '\t' then ['\\', 't']
  else if c.toNat < 0x20 then
    ['\\', 'u', '0', '0', hexDigit (c.toNat / 16), hexDigit (c.toNat % 16)]
  else [c]

/-- A string between its quotes. -/
def quote (text : List Char) : List Char :=
  '"' :: text.flatMap escapeChar ++ ['"']

namespace Value

mutual

/-- The text of a value. -/
def print : Value → List Char
  | .null => ['n', 'u', 'l', 'l']
  | .bool true => ['t', 'r', 'u', 'e']
  | .bool false => ['f', 'a', 'l', 's', 'e']
  | .number n => n.render
  | .string s => quote s.toList
  | .array items => '[' :: printItems items ++ [']']
  | .object fields => '\x7b' :: printFields fields ++ ['\x7d']

/-- The items of an array, divided by commas. -/
def printItems : List Value → List Char
  | [] => []
  | [item] => print item
  | item :: rest => print item ++ ',' :: printItems rest

/-- The fields of an object, divided by commas. -/
def printFields : List (String × Value) → List Char
  | [] => []
  | [(key, item)] => quote key.toList ++ ':' :: print item
  | (key, item) :: rest => quote key.toList ++ ':' :: print item ++ ',' :: printFields rest

end

end Value

end FleetDeploy.Json
