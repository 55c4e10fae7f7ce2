import FleetDeploy.Json.Decode
import FleetDeploy.Report
import FleetDeploy.Text.Blank
import FleetDeploy.Text.Hex

/-!
# Settings

The settings of deployments and the rules that usable ones keep.  Each setting
has a default.  `check` reports the first setting that is unusable, in a fixed
order; the key that seals credentials is checked last.
-/

namespace FleetDeploy

/-- Why a configuration cannot be used. -/
inductive ConfigError
  | io
  | writing
  | parsing
  | homeNotFound
  | invalidSetting (field reason : String)
  deriving DecidableEq, Repr

/-- The report of a configuration error. -/
def ConfigError.report : ConfigError → Report
  | .io => .silent "Io"
  | .writing => .silent "Yaml"
  | .parsing => .silent "Parse"
  | .homeNotFound =>
    .plain "HomeNotFound" "cannot determine home directory; set $HOME or equivalent"
  | .invalidSetting field reason =>
    .plain "InvalidSetting" ("invalid setting `" ++ field ++ "`: " ++ reason)

/-- The settings of deployments. -/
structure Settings where
  storageHostname : String
  proxyUrl : String
  storageRoot : String
  provider : String
  keepVersions : UInt64
  uploadWorkers : UInt64
  cleanupTimeoutSecs : UInt64
  leaseTtlSecs : UInt64
  sealKey : String
  deriving DecidableEq, Repr

namespace Settings

/-- The settings that hold where nothing else is said. -/
def standard : Settings where
  storageHostname := "fly.storage.tigris.dev"
  proxyUrl := "https://tokenizer.fly.io"
  storageRoot := "fly-statics"
  provider := "tigris"
  keepVersions := 3
  uploadWorkers := 5
  cleanupTimeoutSecs := 5
  leaseTtlSecs := 30
  sealKey := "3afdb665d93f741adc98a6cfecb36f1e02403a095e8efa921fd2321857011f42"

instance : Inhabited Settings :=
  ⟨standard⟩

/-- The fields of the settings; each has its default. -/
def record : Json.Record Settings :=
  Settings.mk <$> .withDefault "storage_hostname" Json.text standard.storageHostname
    <*> .withDefault "proxy_url" Json.text standard.proxyUrl
    <*> .withDefault "storage_root" Json.text standard.storageRoot
    <*> .withDefault "provider" Json.text standard.provider
    <*> .withDefault "keep_versions" Json.size standard.keepVersions
    <*> .withDefault "upload_workers" Json.size standard.uploadWorkers
    <*> .withDefault "cleanup_timeout_secs" Json.word64 standard.cleanupTimeoutSecs
    <*> .withDefault "lease_ttl_secs" Json.word64 standard.leaseTtlSecs
    <*> .withDefault "seal_key" Json.text standard.sealKey

/-- Read settings. -/
def ofJson : Json.Decoder Settings :=
  record.decoder "Settings"

/-- The fields of the settings with their values. -/
def toJson (s : Settings) : Json.Value :=
  .object [("storage_hostname", .string s.storageHostname), ("proxy_url", .string s.proxyUrl),
    ("storage_root", .string s.storageRoot), ("provider", .string s.provider),
    ("keep_versions", .number (.natural s.keepVersions)),
    ("upload_workers", .number (.natural s.uploadWorkers)),
    ("cleanup_timeout_secs", .number (.natural s.cleanupTimeoutSecs)),
    ("lease_ttl_secs", .number (.natural s.leaseTtlSecs)), ("seal_key", .string s.sealKey)]

/-- The address of the storage service. -/
def storageEndpoint (s : Settings) : String :=
  "http://" ++ s.storageHostname

/-- The key that seals credentials: thirty-two bytes in hexadecimal, with blanks
around them. -/
def sealKeyBytes (s : Settings) : Except ConfigError (List UInt8) :=
  match Text.Hex.decode (Text.Utf8.encode (Text.trim s.sealKey.toList)) with
  | .error fault => .error (.invalidSetting "seal_key" fault.message)
  | .ok bytes =>
    if bytes.length = 32 then .ok bytes
    else .error (.invalidSetting "seal_key" ("expected 32 bytes, got " ++ toString bytes.length))

/-- Refuse a count that is zero. -/
def checkCount (field : String) (count : UInt64) : Except ConfigError Unit :=
  if count = 0 then .error (.invalidSetting field "must be at least 1") else .ok ()

/-- Refuse a text of which nothing remains when it is trimmed. -/
def checkText (field : String) (trimmed : List Char) : Except ConfigError Unit :=
  if trimmed.isEmpty then .error (.invalidSetting field "must not be empty") else .ok ()

/-- Refuse settings that no deployment can use. -/
def check (s : Settings) : Except ConfigError Unit := do
  checkCount "upload_workers" s.uploadWorkers
  checkCount "keep_versions" s.keepVersions
  checkCount "cleanup_timeout_secs" s.cleanupTimeoutSecs
  checkText "storage_hostname" (Text.trim s.storageHostname.toList)
  checkText "storage_root" (Text.trimBoth (· = '/') s.storageRoot.toList)
  let _ ← s.sealKeyBytes

end Settings

end FleetDeploy
