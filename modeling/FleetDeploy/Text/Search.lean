/-!
# Searching in texts
-/

namespace FleetDeploy.Text

/-- Whether a text contains a part. -/
def contains (part : List Char) : List Char → Bool
  | [] => part.isEmpty
  | c :: rest => part.isPrefixOf (c :: rest) || contains part rest

/-- Write `new` for each occurrence of `old`, from left to right, after passing
over some characters. -/
def replaceFrom (old new : List Char) : Nat → List Char → List Char
  | _, [] => []
  | passed + 1, _ :: rest => replaceFrom old new passed rest
  | 0, c :: rest =>
    if old.isPrefixOf (c :: rest) then new ++ replaceFrom old new (old.length - 1) rest
    else c :: replaceFrom old new 0 rest

/-- Write `new` for each occurrence of `old`. -/
def replace (old new text : List Char) : List Char :=
  replaceFrom old new 0 text

end FleetDeploy.Text
