import FleetDeploy.Program.Basic
import FleetDeploy.Provision.Haiku
import FleetDeploy.Provision.Resource

/-!
# The bucket of an app

Each app has one bucket, which is known by its metadata.  It is looked for among
the provider's resources, and created where there is none.  A new bucket gets a
credential and the metadata that names its app; if that fails, the bucket is
deleted again.
-/

namespace FleetDeploy

/-- A call to the provider of resources. -/
inductive ResourceCall
  | list (provider : String)
  | create (request : ResourceRequest)
  | update (id : String) (metadata : BucketMetadata)
  | delete (name : String)
  | drawWords
  deriving DecidableEq, Repr

/-- The provider of resources, and the source of random words. -/
abbrev ResourceService : Interface where
  Call := ResourceCall
  Reply
    | .list _ => Except ResourceError (List Resource)
    | .create _ => Except ResourceError CreatedResource
    | .update _ _ => Except ResourceError Unit
    | .delete _ => Except ResourceError Unit
    | .drawWords => List UInt64

/-- A bucket that is ready for use. -/
structure BucketRecord where
  bucket : String
  appId : String
  credential : SealedCredential
  created : Bool
  deriving DecidableEq, Repr

/-- What provisions buckets: the issuer of credentials and the provider. -/
structure Provisioner where
  issuer : Issuer
  provider : String
  deriving DecidableEq, Repr

namespace Resource

/-- The bucket of an app that a resource is, according to its metadata. -/
def ofApp? (appId : String) (resource : Resource) : Option BucketRecord :=
  match BucketMetadata.lookup resource.metadata with
  | .found metadata =>
    if metadata.appId = appId then some ⟨resource.name, appId, metadata.credential, false⟩
    else none
  | _ => none

end Resource

namespace Provisioner

/-- The provisioner that the settings describe. -/
def ofSettings (s : Settings) : Except ProvisionError Provisioner :=
  match Issuer.ofSettings s with
  | .ok issuer => .ok ⟨issuer, s.provider⟩
  | .error cause => .error (.credential cause)

/-- The name that an app's bucket should have. -/
def preferredName (app : App) : String :=
  app.name ++ "-statics"

/-- The request for an app's bucket under a name. -/
def request (p : Provisioner) (org : Org) (region name : String) : ResourceRequest :=
  ⟨p.provider, name, org.slug, region, .standard⟩

/-- A name with a random suffix. -/
def withSuffix (name : String) (words : List UInt64) : String :=
  name ++ "-" ++ (Haiku.ofWords words).1

/-- Create the bucket under its preferred name, and once more with a suffix if
that name is taken.  If this fails too, the first refusal counts. -/
def create (p : Provisioner) (app : App) (org : Org) (region : String) :
    Program ResourceService (Except ProvisionError CreatedResource) := do
  let wanted := p.request org region (preferredName app)
  match ← Program.perform (I := ResourceService) (.create wanted) with
  | .ok created => return .ok created
  | .error refusal =>
    if refusal.isNameCollision then
      let words : List UInt64 ← Program.perform (I := ResourceService) .drawWords
      let suffixed := { wanted with name := withSuffix wanted.name words }
      match ← Program.perform (I := ResourceService) (.create suffixed) with
      | .ok created => return .ok created
      | .error _ => return .error (.resource refusal)
    else return .error (.resource refusal)

/-- The credential for a new bucket, issued from the environment it came with. -/
def credential (p : Provisioner) (app : App) (org : Org) (created : CreatedResource) :
    Except ProvisionError SealedCredential :=
  match Secrets.ofEnvironment created.environment with
  | .error cause => .error (.credential cause)
  | .ok secrets => (p.issuer.issue org app created.name secrets).mapError .credential

/-- Issue the credential of a new bucket and store it in the metadata. -/
def configure (p : Provisioner) (app : App) (org : Org) (created : CreatedResource) :
    Program ResourceService (Except ProvisionError SealedCredential) := do
  match p.credential app org created with
  | .error e => return .error e
  | .ok credential =>
    match ← Program.perform (I := ResourceService) (.update created.id ⟨app.id, credential⟩) with
    | .ok () => return .ok credential
    | .error cause => return .error (.resource cause)

/-- Find the bucket of an app, or create and configure it.  A bucket that cannot
be configured is deleted, and whether that succeeds does not matter. -/
def ensureBucket (p : Provisioner) (app : App) (org : Org) (region : String) :
    Program ResourceService (Except ProvisionError BucketRecord) := do
  match ← Program.perform (I := ResourceService) (.list p.provider) with
  | .error cause => return .error (.resource cause)
  | .ok resources =>
    match resources.findSome? (Resource.ofApp? app.id) with
    | some existing => return .ok existing
    | none =>
      match ← p.create app org region with
      | .error e => return .error e
      | .ok created =>
        match ← p.configure app org created with
        | .ok credential => return .ok ⟨created.name, app.id, credential, true⟩
        | .error e =>
          let _ ← Program.perform (I := ResourceService) (.delete created.name)
          return .error e

end Provisioner

end FleetDeploy
