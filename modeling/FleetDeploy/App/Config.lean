import FleetDeploy.App.Static

/-!
# App configuration

The part of an app's configuration that a deployment reads: its name, where it
runs, the static assets it declares and the names of its process groups.
-/

namespace FleetDeploy

/-- The configuration of an app. -/
structure AppConfig where
  appName : String
  primaryRegion : String
  statics : List StaticAsset
  processes : List String
  deriving DecidableEq, Repr

/-- The process group of an app that declares none. -/
def defaultProcessGroup : String :=
  "app"

namespace AppConfig

/-- The only process group, if the app declares at most one. -/
def defaultProcessName (config : AppConfig) : Option String :=
  match config.processes with
  | [] => some defaultProcessGroup
  | [only] => some only
  | _ => none

/-- The assets that are pushed to the app's bucket, in their declared order. -/
def candidates (config : AppConfig) : List StaticAsset :=
  config.statics.filter StaticAsset.isSyncCandidate

/-- Whether some asset is pushed to the app's bucket. -/
def hasSyncCandidates (config : AppConfig) : Bool :=
  config.statics.any StaticAsset.isSyncCandidate

/-- The fields of a configuration; all but the name may be missing. -/
def record : Json.Record AppConfig :=
  AppConfig.mk <$> .required "app_name" Json.text
    <*> .withDefault "primary_region" Json.text ""
    <*> .withDefault "statics" (Json.list StaticAsset.ofJson) []
    <*> .withDefault "processes" (Json.list Json.text) []

/-- Read a configuration. -/
def ofJson : Json.Decoder AppConfig :=
  record.decoder "AppConfig"

/-- The fields of a configuration with their values. -/
def toJson (config : AppConfig) : Json.Value :=
  .object [("app_name", .string config.appName),
    ("primary_region", .string config.primaryRegion),
    ("statics", .array (config.statics.map StaticAsset.toJson)),
    ("processes", .array (config.processes.map .string))]

end AppConfig

end FleetDeploy
