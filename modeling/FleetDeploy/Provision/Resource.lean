import FleetDeploy.Provision.Error

/-!
# Storage resources

What the provider of storage resources keeps and answers: buckets with their
metadata, and the environment that a new bucket comes with.  The metadata of an
app's bucket names the app and carries the credential for writing to it.
-/

namespace FleetDeploy

/-- How a bucket is set up. -/
structure BucketOptions where
  isPublic : Bool
  accelerate : Bool
  websiteDomainName : String
  deriving DecidableEq, Repr

namespace BucketOptions

/-- The options of buckets for static assets. -/
def standard : BucketOptions :=
  ⟨true, false, ""⟩

/-- The fields of the options with their values. -/
def toJson (options : BucketOptions) : Json.Value :=
  .object [("public", .bool options.isPublic), ("accelerate", .bool options.accelerate),
    ("website_domain_name", .string options.websiteDomainName)]

end BucketOptions

/-- A resource that the provider keeps. -/
structure Resource where
  id : String
  name : String
  metadata : Option Json.Value
  deriving Repr

/-- What a new resource is asked to be. -/
structure ResourceRequest where
  provider : String
  name : String
  orgSlug : String
  region : String
  options : BucketOptions
  deriving DecidableEq, Repr

/-- A resource that was just created, with the environment to use it. -/
structure CreatedResource where
  id : String
  name : String
  environment : TextMap
  deriving DecidableEq, Repr

/-- What the metadata of an app's bucket says. -/
structure BucketMetadata where
  appId : String
  credential : SealedCredential
  deriving DecidableEq, Repr

/-- What is found where metadata is looked for. -/
inductive MetadataLookup
  | missing
  | malformed (fault : Json.DecodeError)
  | found (metadata : BucketMetadata)
  deriving Repr

namespace SealedCredential

/-- Read a credential. -/
def ofJson : Json.Decoder SealedCredential :=
  fun v => (Json.text v).map SealedCredential.mk

/-- A credential as a text. -/
def toJson (credential : SealedCredential) : Json.Value :=
  .string credential.text

end SealedCredential

namespace BucketMetadata

/-- The key of the app's identifier. -/
def appIdKey : String :=
  "fly-statics-app-id"

/-- The key of the sealed credential. -/
def credentialKey : String :=
  "fly-statics-tokenized-auth"

/-- The fields of the metadata. -/
def record : Json.Record BucketMetadata :=
  BucketMetadata.mk <$> .required appIdKey Json.text
    <*> .required credentialKey SealedCredential.ofJson

/-- Read metadata. -/
def ofJson : Json.Decoder BucketMetadata :=
  record.decoder "BucketMetadata"

/-- The fields of the metadata with their values. -/
def toJson (metadata : BucketMetadata) : Json.Value :=
  .object [(appIdKey, .string metadata.appId), (credentialKey, metadata.credential.toJson)]

/-- Look for the metadata of an app's bucket.  No metadata and null metadata are
the same. -/
def lookup : Option Json.Value → MetadataLookup
  | none => .missing
  | some .null => .missing
  | some v =>
    match ofJson v with
    | .ok metadata => .found metadata
    | .error fault => .malformed fault

end BucketMetadata

end FleetDeploy
