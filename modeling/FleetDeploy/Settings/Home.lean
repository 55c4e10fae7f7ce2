import FleetDeploy.ConfigFile
import FleetDeploy.Local.Path
import FleetDeploy.Yaml.Printer

/-!
# The settings of a user

Settings are kept in a file in a directory of the user's home.  Without the file
the standard settings hold.  `Home.save` writes a temporary file beside it, lets
only its owner read it, and moves it into place, so the settings are never read
half written; a directory in that place stops the move, and the temporary file
remains.
-/

namespace FleetDeploy

namespace Settings

/-- The fields of the settings in their file; each has its default. -/
def fileRecord : Yaml.Record Settings :=
  Settings.mk <$> .withDefault "storage_hostname" Yaml.text standard.storageHostname
    <*> .withDefault "proxy_url" Yaml.text standard.proxyUrl
    <*> .withDefault "storage_root" Yaml.text standard.storageRoot
    <*> .withDefault "provider" Yaml.text standard.provider
    <*> .withDefault "keep_versions" Yaml.count standard.keepVersions
    <*> .withDefault "upload_workers" Yaml.count standard.uploadWorkers
    <*> .withDefault "cleanup_timeout_secs" Yaml.count standard.cleanupTimeoutSecs
    <*> .withDefault "lease_ttl_secs" Yaml.count standard.leaseTtlSecs
    <*> .withDefault "seal_key" Yaml.text standard.sealKey

/-- The fields of the settings with their values, in the order of the file. -/
def fileFields (s : Settings) : List (String × Yaml.Printer.Item) :=
  [("storage_hostname", .text s.storageHostname), ("proxy_url", .text s.proxyUrl),
    ("storage_root", .text s.storageRoot), ("provider", .text s.provider),
    ("keep_versions", .count s.keepVersions), ("upload_workers", .count s.uploadWorkers),
    ("cleanup_timeout_secs", .count s.cleanupTimeoutSecs),
    ("lease_ttl_secs", .count s.leaseTtlSecs), ("seal_key", .text s.sealKey)]

/-- The contents of the file that holds the settings. -/
def fileContents (s : Settings) : List UInt8 :=
  Text.Utf8.encode (Yaml.Printer.record s.fileFields)

/-- The settings that contents of a file hold, if a deployment can use them. -/
def ofFileContents (contents : List UInt8) : Except ConfigError Settings := do
  let s ← ConfigFile.read fileRecord.decoder contents
  s.check
  return s

/-- The path of the settings of the user with a home directory. -/
def path (home : Path) : Path :=
  (home.join (.ofString ".armada")).join (.ofString "settings.yaml")

end Settings

/-- Permissions as a number with an octal digit for the owner, for the group and for
all others. -/
abbrev Permissions :=
  Nat

namespace Permissions

/-- All that concerns a directory, for its owner only. -/
def privateDirectory : Permissions := 0o700

/-- Reading and writing, for the owner only. -/
def privateFile : Permissions := 0o600

/-- What a new directory has unless something else is said. -/
def commonDirectory : Permissions := 0o755

/-- What a new file has unless something else is said. -/
def commonFile : Permissions := 0o644

end Permissions

/-- What stands at the path of the settings. -/
inductive SettingsSlot
  | nothing
  | file (contents : List UInt8) (permissions : Permissions)
  | directory
  deriving DecidableEq, Repr

/-- The part of a home directory that concerns settings: the permissions of their
directory, if it exists, what stands at their path, and whether a temporary file
was left beside it. -/
structure Home where
  directory : Option Permissions
  slot : SettingsSlot
  temporary : Bool
  deriving DecidableEq, Repr

namespace Home

/-- A home directory without settings. -/
def empty : Home :=
  ⟨none, .nothing, false⟩

/-- Read the settings. -/
def load (home : Home) : Except ConfigError Settings :=
  match home.slot with
  | .nothing => .ok .standard
  | .directory => .error .io
  | .file contents _ => Settings.ofFileContents contents

/-- Write the settings.  A directory that is missing is made for its owner only; one
that exists stays as it is. -/
def save (s : Settings) (home : Home) : Except ConfigError Unit × Home :=
  let directory := some (home.directory.getD Permissions.privateDirectory)
  match home.slot with
  | .directory => (.error .io, { home with directory, temporary := true })
  | _ => (.ok (), ⟨directory, .file s.fileContents Permissions.privateFile, false⟩)

/-- Let a user write the file by other means.  A file keeps its permissions. -/
def overwrite (contents : List UInt8) (home : Home) : Home :=
  let directory := some (home.directory.getD Permissions.commonDirectory)
  match home.slot with
  | .nothing => { home with directory, slot := .file contents Permissions.commonFile }
  | .file _ permissions => { home with slot := .file contents permissions }
  | .directory => home

/-- Let a user remove the file. -/
def removeFile (home : Home) : Home :=
  match home.slot with
  | .file _ _ => { home with slot := .nothing }
  | _ => home

/-- Let a user make a directory at the path of the settings. -/
def makeDirectory (home : Home) : Home :=
  match home.slot with
  | .nothing =>
    { home with
      directory := some (home.directory.getD Permissions.commonDirectory), slot := .directory }
  | _ => home

end Home

end FleetDeploy
