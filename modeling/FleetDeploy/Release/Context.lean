import FleetDeploy.App.Config
import FleetDeploy.Provision.Bucket
import FleetDeploy.Store.Target
import FleetDeploy.Sync.Cleanup
import FleetDeploy.Sync.Retention

/-!
# The context of a release

Publishing a release calls on the provider of buckets, on the connector to the
object store and on the services of synchronisation.  The configuration of the
app belongs to the caller; each change of its assets is told to the caller by a
call, so that it stands whatever happens afterwards.

The context is what preparing a release makes and what its later steps need.
-/

namespace FleetDeploy

/-- A call that publishing a release makes. -/
inductive ReleaseCall
  | provision (c : ResourceCall)
  | sync (c : SyncCall)
  | connect (target : StoreTarget)
  | setStatics (statics : List StaticAsset)
  deriving DecidableEq, Repr

/-- The services of a release. -/
abbrev ReleaseService : Interface where
  Call := ReleaseCall
  Reply
    | .provision c => ResourceService.Reply c
    | .sync c => SyncService.Reply c
    | .connect _ => Except StoreError Unit
    | .setStatics _ => Unit

namespace ReleaseService

/-- Make a call. -/
abbrev ask (c : ReleaseCall) : Program ReleaseService (ReleaseService.Reply c) :=
  Program.perform (I := ReleaseService) c

/-- Provisioning as a part of a release. -/
def provision {α : Type} (p : Program ResourceService α) : Program ReleaseService α :=
  p.embed (J := ReleaseService) .provision fun _ reply => reply

/-- Synchronisation as a part of a release. -/
def sync {α : Type} (p : Program SyncService α) : Program ReleaseService α :=
  p.embed (J := ReleaseService) .sync fun _ reply => reply

end ReleaseService

/-- A release: its number, and where its files are. -/
structure Release where
  version : UInt64
  sourceRoot : Path
  deriving DecidableEq, Repr

/-- A release with its bucket, and what was settled when it was prepared. -/
structure ReleaseContext where
  sync : Synchronizer
  credential : SealedCredential
  appName : String
  release : Release
  declaredStatics : List StaticAsset
  storageRoot : String
  keepVersions : UInt64
  cleanupTimeoutSecs : UInt64

namespace ReleaseContext

/-- The directory of the release in its bucket. -/
def versionRoot (c : ReleaseContext) : Key :=
  Key.versionRoot c.storageRoot.toList c.appName.toList c.release.version

/-- The assets to publish. -/
def candidates (c : ReleaseContext) : List StaticAsset :=
  c.declaredStatics.filter StaticAsset.isSyncCandidate

/-- The directory of the bucket for an asset. -/
def dest (c : ReleaseContext) (place : Nat) : Key :=
  Key.staticDest c.versionRoot place

/-- The local directory of an asset. -/
def localRoot (c : ReleaseContext) (asset : StaticAsset) : Path :=
  c.release.sourceRoot.join
    (Text.Utf8.encode (Key.trimSlashes asset.guestPath.toList))

/-- The entry that serves a published asset from the bucket. -/
def entry (c : ReleaseContext) (place : Nat) (asset : StaticAsset) : StaticAsset where
  guestPath := String.ofList ('/' :: c.dest place)
  urlPath := asset.urlPath
  bucket := some c.sync.bucket
  indexDocument := asset.indexDocument

end ReleaseContext

end FleetDeploy
