import FleetDeploy.Json.Decode

/-!
# Static assets

A static asset is a directory of a release that is served under a URL.  Where
its path is relative and no bucket is named, the directory is synchronised to
the app's own bucket; an absolute path is part of the deployed image, and a
named bucket is its owner's business.
-/

namespace FleetDeploy

/-- A directory served as static content. -/
structure StaticAsset where
  guestPath : String
  urlPath : String
  bucket : Option String
  indexDocument : Option String
  deriving DecidableEq, Repr

namespace StaticAsset

/-- Whether the asset is pushed to the app's bucket: no bucket is named, and the
path is neither empty nor absolute. -/
def isSyncCandidate (asset : StaticAsset) : Bool :=
  (asset.bucket.getD "").isEmpty && !asset.guestPath.isEmpty &&
    asset.guestPath.toList.head? ≠ some '/'

/-- The fields of an asset; the bucket and the index document may be missing. -/
def record : Json.Record StaticAsset :=
  StaticAsset.mk <$> .required "guest_path" Json.text
    <*> .required "url_prefix" Json.text
    <*> .withDefault "bucket" (Json.optional Json.text) none
    <*> .withDefault "index_document" (Json.optional Json.text) none

/-- Read an asset. -/
def ofJson : Json.Decoder StaticAsset :=
  record.decoder "StaticAssetSpec"

/-- A field that is left out when it has no value. -/
def present (key : String) (value : Option String) : List (String × Json.Value) :=
  value.toList.map fun v => (key, .string v)

/-- The fields of an asset, without those that have no value. -/
def toJson (asset : StaticAsset) : Json.Value :=
  .object <|
    [("guest_path", .string asset.guestPath), ("url_prefix", .string asset.urlPath)] ++
    present "bucket" asset.bucket ++ present "index_document" asset.indexDocument

end StaticAsset

end FleetDeploy
