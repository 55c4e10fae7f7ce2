import FleetDeploy.Json.Decode

/-!
# Identities

An app and the organization that owns it, as the control plane names them.  The
numeric identifier of an organization is a text, since it is reported as one; it
is read as a number where a credential binds it.
-/

namespace FleetDeploy

/-- The app that a deployment belongs to. -/
structure App where
  id : String
  name : String
  numericId : UInt64
  deriving DecidableEq, Repr

namespace App

/-- The fields of an app. -/
def record : Json.Record App :=
  App.mk <$> .required "id" Json.text
    <*> .required "name" Json.text
    <*> .required "internal_numeric_id" Json.word64

/-- Read an app. -/
def ofJson : Json.Decoder App :=
  record.decoder "AppIdentity"

/-- The fields of an app with their values. -/
def toJson (app : App) : Json.Value :=
  .object [("id", .string app.id), ("name", .string app.name),
    ("internal_numeric_id", .number (.natural app.numericId))]

end App

/-- The organization that owns an app. -/
structure Org where
  slug : String
  numericId : String
  deriving DecidableEq, Repr

namespace Org

/-- The fields of an organization. -/
def record : Json.Record Org :=
  Org.mk <$> .required "slug" Json.text
    <*> .required "internal_numeric_id" Json.text

/-- Read an organization. -/
def ofJson : Json.Decoder Org :=
  record.decoder "OrgIdentity"

/-- The fields of an organization with their values. -/
def toJson (org : Org) : Json.Value :=
  .object [("slug", .string org.slug), ("internal_numeric_id", .string org.numericId)]

end Org

end FleetDeploy
