import FleetDeploy.Credential.Sealed
import FleetDeploy.Text.Search

/-!
# Errors of provisioning

The provider of storage resources answers a call with its own errors.  A name
that is taken is told in one of two ways: by its own kind of error, or by a
message of the general kind in known words.
-/

namespace FleetDeploy

/-- Why the provider of resources refuses a call. -/
inductive ResourceError
  | nameUnavailable (name message : String)
  | notFound (name : String)
  | service (message : String)
  deriving DecidableEq, Repr

namespace ResourceError

/-- The report of a resource error. -/
def report : ResourceError → Report
  | .nameUnavailable name message =>
    .plain "NameUnavailable" ("name `" ++ name ++ "` is unavailable: " ++ message)
  | .notFound name => .plain "NotFound" ("resource `" ++ name ++ "` not found")
  | .service message => .plain "Api" ("resource API error: " ++ message)

/-- The words in which a message tells that a name is taken. -/
def collisionPhrases : List String :=
  ["already exists for app", "unavailable for creation"]

/-- Whether an error asks for another name. -/
def isNameCollision : ResourceError → Bool
  | .nameUnavailable _ _ => true
  | .service message => collisionPhrases.any fun phrase => Text.contains phrase.toList message.toList
  | .notFound _ => false

end ResourceError

/-- Why a bucket cannot be provisioned. -/
inductive ProvisionError
  | resource (cause : ResourceError)
  | credential (cause : CredentialError)
  deriving DecidableEq, Repr

/-- The report of a provisioning error. -/
def ProvisionError.report : ProvisionError → Report
  | .resource cause => .because "Resource" "resource error: " cause.report
  | .credential cause => .because "Credential" "credential error: " cause.report

end FleetDeploy
