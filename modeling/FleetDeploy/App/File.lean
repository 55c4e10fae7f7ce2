import FleetDeploy.App.Config
import FleetDeploy.ConfigFile

/-!
# The file of an app's configuration

An app's configuration is kept in a YAML file with the same fields as in JSON.
-/

namespace FleetDeploy

/-- The fields of an asset in a file. -/
def StaticAsset.fileRecord : Yaml.Record StaticAsset :=
  StaticAsset.mk <$> .required "guest_path" Yaml.text
    <*> .required "url_prefix" Yaml.text
    <*> .withDefault "bucket" Yaml.optionalText none
    <*> .withDefault "index_document" Yaml.optionalText none

namespace AppConfig

/-- The fields of a configuration in a file; all but the name may be missing. -/
def fileRecord : Yaml.Record AppConfig :=
  AppConfig.mk <$> .required "app_name" Yaml.text
    <*> .withDefault "primary_region" Yaml.text ""
    <*> .withDefault "statics" (Yaml.list StaticAsset.fileRecord.decoder) []
    <*> .withDefault "processes" (Yaml.list Yaml.text) []

/-- Read the configuration from a file, which may not exist. -/
def load (file : Option (List UInt8)) : Except ConfigError AppConfig :=
  match file with
  | none => .error .io
  | some contents => ConfigFile.read fileRecord.decoder contents

end AppConfig

end FleetDeploy
