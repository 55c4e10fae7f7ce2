import FleetDeploy.Settings.Basic
import FleetDeploy.Text.Utf8
import FleetDeploy.Yaml.Decode

/-!
# Configuration files

A configuration file holds one YAML document in UTF-8.  Bytes that are no text
count as a failure to read the file, and all that is wrong with the document as
a failure to parse it.
-/

namespace FleetDeploy.ConfigFile

/-- Read the contents of a file. -/
def read {α : Type} (decode : Yaml.Decoder α) (contents : List UInt8) : Except ConfigError α :=
  match Text.Utf8.decode? contents with
  | none => .error .io
  | some text =>
    match Yaml.read? decode text with
    | none => .error .parsing
    | some value => .ok value

end FleetDeploy.ConfigFile
