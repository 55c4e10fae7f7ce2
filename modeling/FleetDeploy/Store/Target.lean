import FleetDeploy.Credential.Sealed

/-!
# Store targets

What is needed to reach a bucket through the proxy that holds its secrets.
-/

namespace FleetDeploy

/-- A bucket, the addresses on the way to it, and the credential for it. -/
structure StoreTarget where
  bucket : String
  endpoint : String
  proxyUrl : String
  credential : SealedCredential
  deriving DecidableEq, Repr

namespace StoreTarget

/-- The target of a bucket under the settings. -/
def ofSettings (s : Settings) (bucket : String) (credential : SealedCredential) : StoreTarget :=
  ⟨bucket, s.storageEndpoint, s.proxyUrl, credential⟩

end StoreTarget

end FleetDeploy
