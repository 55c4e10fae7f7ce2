import FleetDeploy.Local.Path

/-!
# Content types by extension

Which type is registered for an extension is told by a map from outside.  The map
is never looked into, so what holds of an upload holds for every map.
-/

namespace FleetDeploy

/-- A map from the extensions of names to their registered types.  A name may hold
any bytes, and so may its extension. -/
class ContentTypes where
  ofExtension? : List UInt8 → Option String

/-- The type registered for the extension of a path, if it has one. -/
def ContentTypes.ofPath? (types : ContentTypes) (path : Path) : Option String :=
  path.extension?.bind types.ofExtension?

end FleetDeploy
