import FleetDeploy.App.Identity
import FleetDeploy.Credential.Scope
import FleetDeploy.Crypto.Gcm
import FleetDeploy.Crypto.Sha256
import FleetDeploy.Settings.Basic
import FleetDeploy.Text.Base64Url
import FleetDeploy.Text.Numeral

/-!
# Sealed credentials

A credential carries the secrets of a bucket to the proxy that uses them, sealed
so that only holders of the seal key can open it.  Its envelope is a version
byte, a nonce of twelve bytes and an authenticated ciphertext, as URL-safe base64
text.  The nonce is taken from a keyed hash of the payload, so the same payload
under the same key is sealed to the same text.

`inspect` opens an envelope and gives back the scope it was issued for.
-/

namespace FleetDeploy

/-- Why a credential cannot be issued or opened. -/
inductive CredentialError
  | invalidOrgId (slug : String) (fault : Text.Numeral.Fault)
  | missingSecret (name : String)
  | sealKey (cause : ConfigError)
  | payload
  | sealing (reason : String)
  | malformed (reason : String)
  | unsupportedVersion (version : UInt8)
  | invalidBase64 (fault : Text.Base64Url.Fault)
  deriving DecidableEq, Repr

/-- The report of a credential error. -/
def CredentialError.report : CredentialError → Report
  | .invalidOrgId slug fault =>
    .plain "InvalidOrgId" ("failed to decode org ID for " ++ slug ++ ": " ++ fault.message)
  | .missingSecret name =>
    .plain "MissingSecret" ("missing processor secret `" ++ name ++ "`")
  | .sealKey cause => .because "SealKey" "seal key error: " cause.report
  | .payload => .silent "Json"
  | .sealing reason => .plain "Seal" ("sealing failed: " ++ reason)
  | .malformed reason => .plain "Malformed" ("sealed credential is malformed: " ++ reason)
  | .unsupportedVersion version =>
    .plain "UnsupportedVersion"
      ("unsupported sealed credential version: " ++ toString version.toNat)
  | .invalidBase64 fault => .plain "InvalidBase64" ("invalid base64: " ++ fault.message)

/-- The pair of secrets that signs requests to a bucket.  Neither is blank. -/
structure Secrets where
  access : String
  secret : String
  deriving DecidableEq, Repr

namespace Secrets

/-- The environment variable of the access key. -/
def accessVariable : String :=
  "AWS_ACCESS_KEY_ID"

/-- The environment variable of the secret key. -/
def secretVariable : String :=
  "AWS_SECRET_ACCESS_KEY"

/-- Whether nothing remains of a text without its blanks. -/
def isBlank (text : String) : Bool :=
  (Text.trim text.toList).isEmpty

/-- Take a pair of secrets, neither of which may be blank. -/
def new (access secret : String) : Except CredentialError Secrets :=
  if isBlank access then .error (.missingSecret accessVariable)
  else if isBlank secret then .error (.missingSecret secretVariable)
  else .ok ⟨access, secret⟩

/-- Take the secrets from an environment, which has to define both. -/
def ofEnvironment (env : TextMap) : Except CredentialError Secrets :=
  match env.get? accessVariable, env.get? secretVariable with
  | none, _ => .error (.missingSecret accessVariable)
  | some _, none => .error (.missingSecret secretVariable)
  | some access, some secret => new access secret

/-- How secrets are shown: not at all. -/
def shown : String :=
  "ProcessorSecrets \x7b access_key_id: \"<redacted>\", secret_access_key: \"<redacted>\" \x7d"

end Secrets

/-- A sealed credential as the text that travels. -/
structure SealedCredential where
  text : String
  deriving DecidableEq, Repr

/-- What seals credentials: the key and the host name of the storage service. -/
structure Issuer where
  key : List UInt8
  storageHostname : String
  deriving DecidableEq, Repr

namespace SealedCredential

/-- The version of envelopes. -/
def version : UInt8 :=
  1

/-- The number of bytes of a nonce. -/
def nonceLength : Nat :=
  12

/-- The payload of a credential: its scope and the secrets. -/
def payload (scope : AccessScope) (secrets : Secrets) : List UInt8 :=
  let processor := Json.Value.object
    [("access_key", .string secrets.access), ("secret_key", .string secrets.secret)]
  Text.Utf8.encode (Json.Value.object [("scope", scope.toJson), ("processor", processor)]).print

/-- The nonce of a payload. -/
def nonce (key payload : List UInt8) : List UInt8 :=
  (Crypto.hmacSha256 key payload).take nonceLength

/-- The envelope of a payload under a nonce. -/
def envelope (key nonce payload : List UInt8) : List UInt8 :=
  version :: nonce ++ Crypto.Gcm.encrypt key nonce payload

/-- Seal a payload. -/
def ofPayload (key payload : List UInt8) : SealedCredential :=
  ⟨Text.Base64Url.encodeText (envelope key (nonce key payload) payload)⟩

/-- The scope in the written form of a scope: an object with the four fields,
each given once, or an array of them. -/
def scopeOfRaw? : Json.Raw → Option AccessScope
  | .object members => do
    let known ← Json.Value.knownFields? (AccessScope.record.keys.map (·.1)) members
    (AccessScope.ofJson (.object known)).toOption
  | .array items => do
    let values ← Json.Value.ofRawItems? items
    (AccessScope.ofJson (.array values)).toOption
  | _ => none

/-- The scope that a payload names.  What else the payload holds is not looked
at, as long as it is JSON. -/
def scopeOfPayload? (payload : List UInt8) : Option AccessScope := do
  match ← Json.Raw.parse? payload with
  | .object members =>
    match ← Json.Value.knownMembers? ["scope"] members with
    | [(_, scope)] => scopeOfRaw? scope
    | _ => none
  | .array [scope] => scopeOfRaw? scope
  | _ => none

/-- Open an envelope with the seal key. -/
def openEnvelope (key : List UInt8) : List UInt8 → Except CredentialError (List UInt8)
  | [] => .error (.malformed "empty envelope")
  | v :: rest =>
    if v ≠ version then .error (.unsupportedVersion v)
    else if rest.length ≤ nonceLength then
      .error (.malformed ("envelope too short: " ++ toString (rest.length + 1) ++ " bytes"))
    else
      match Crypto.Gcm.decrypt? key (rest.take nonceLength) (rest.drop nonceLength) with
      | some payload => .ok payload
      | none => .error (.malformed "authentication failed")

/-- The scope that a credential was issued for. -/
def inspect (credential : SealedCredential) (key : List UInt8) :
    Except CredentialError AccessScope := do
  let bytes ← (Text.Base64Url.decode (Text.Utf8.encode credential.text.toList)).mapError
    .invalidBase64
  let payload ← openEnvelope key bytes
  match scopeOfPayload? payload with
  | some scope => return scope
  | none => throw .payload

end SealedCredential

namespace Issuer

/-- The issuer that the settings describe. -/
def ofSettings (s : Settings) : Except CredentialError Issuer :=
  match s.sealKeyBytes with
  | .ok key => .ok ⟨key, s.storageHostname⟩
  | .error cause => .error (.sealKey cause)

/-- Issue a credential for writing to a bucket. -/
def issue (issuer : Issuer) (org : Org) (app : App) (bucket : String) (secrets : Secrets) :
    Except CredentialError SealedCredential :=
  match Text.Numeral.parse org.numericId.toList with
  | .error fault => .error (.invalidOrgId org.slug fault)
  | .ok orgId =>
    let scope := AccessScope.forBucket orgId app.numericId bucket issuer.storageHostname
    .ok (.ofPayload issuer.key (SealedCredential.payload scope secrets))

end Issuer

end FleetDeploy
