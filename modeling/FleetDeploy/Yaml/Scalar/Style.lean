/-!
# Styles of scalars

A scalar is a single text.  Its style decides how much of the text may be read
as a number, a truth value or nothing: only plain scalars are looked at again.
-/

namespace FleetDeploy.Yaml

/-- How a scalar is written. -/
inductive Style
  | plain
  | single
  | double
  | literal
  | folded
  deriving DecidableEq, Repr

end FleetDeploy.Yaml
