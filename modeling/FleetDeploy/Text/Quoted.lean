import FleetDeploy.Text.Hidden

/-!
# Quoted text in messages

Messages show a text between double quotes and a single character between
single quotes.  The own quote, the backslash and the usual controls have short
escapes; a character that a reader cannot see is written by its number in
braces; all others stand as they are.
-/

namespace FleetDeploy.Text

/-- The hexadecimal digits of a number, in lower case. -/
def hexDigits (n : Nat) : List Char :=
  Nat.toDigits 16 n

/-- One character of quoted text, where `mark` is the quote to escape. -/
def quoteChar (mark : Char) (c : Char) : List Char :=
  if c = '\x00' then ['\\', '0']
  else if c = '\t' then ['\\', 't']
  else if c = '\n' then ['\\', 'n']
  else if c = '\r' then ['\\', 'r']
  else if c = '\\' then ['\\', '\\']
  else if c = mark then ['\\', c]
  else if isHidden c then ['\\', 'u', '\x7b'] ++ hexDigits c.toNat ++ ['\x7d']
  else [c]

/-- The single quotation mark. -/
def singleQuote : Char :=
  '\x27'

/-- A text between double quotes. -/
def quoted (text : String) : String :=
  String.ofList ('"' :: text.toList.flatMap (quoteChar '"') ++ ['"'])

/-- A character between single quotes. -/
def quotedChar (c : Char) : String :=
  String.ofList (singleQuote :: quoteChar singleQuote c ++ [singleQuote])

end FleetDeploy.Text
